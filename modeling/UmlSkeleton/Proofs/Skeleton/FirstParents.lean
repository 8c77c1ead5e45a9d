import UmlSkeleton.Proofs.Inheritance
import UmlSkeleton.Proofs.Layout.Size
import UmlSkeleton.Proofs.Skeleton.Sections

/-!
# What relationships change in a skeleton

The blocks of a skeleton learn from the relationships one thing only: for each name, the parent that the
first generalization of a class of this name leads to (`firstParent?`). Two models with the same classes
and the same first parents have the same skeleton, however their relationships differ, if no trailer is
wanted. So a relationship that gives no class a parent where it stands may be left out, put in or moved.
A trailer tells of all relationships that resolve, but of no other.

* `parent?_eq_firstParent?` — inheritance is that of the first parents.
* `Idle` — a relationship that gives no class a parent after those before it.
* `skeleton_of_firstParents` — which relationships change a skeleton.
-/

namespace UmlSkeleton

/-! ## First parents -/

/-- The parent that a relationship gives to the classes of a name. It has to be a generalization, and
both its keys must lead to classes, the first one to a class of this name. -/
def Relationship.givenParent? (r : Relationship) (classes : List Class) (child : String) :
    Option String :=
  if r.kind = .known .generalization then do
    let c ← classes.find? (·.key = r.source)
    let p ← classes.find? (·.key = r.target)
    if c.name = child then some p.name else none
  else none

/-- The parent that the first such relationship gives. -/
def Model.firstParent? (m : Model) (child : String) : Option String :=
  m.relationships.findSome? (·.givenParent? m.classes child)

/-- The first one among the results of a partial function is the first result. -/
theorem map_find?_filterMap (xs : List α) (f : α → Option β) (p : β → Bool) (g : β → γ) :
    ((xs.filterMap f).find? p).map g = xs.findSome? fun a => ((f a).filter p).map g := by
  induction xs with
  | nil => rfl
  | cons x xs ih =>
      cases hx : f x with
      | none =>
          rw [List.filterMap_cons_none hx, List.findSome?_cons, hx, ih]
          rfl
      | some y =>
          rw [List.filterMap_cons_some hx, List.findSome?_cons, hx]
          cases hy : p y with
          | true => simp [Option.filter, hy]
          | false =>
              rw [List.find?_cons_of_neg (by simp [hy]), ih]
              simp [Option.filter, hy]

namespace Model

theorem givenParent?_eq (m : Model) (child : String) (r : Relationship) :
    r.givenParent? m.classes child = ((m.link? r).filter (·.child = child)).map (·.parent) := by
  unfold Relationship.givenParent? link?
  by_cases hk : r.kind = .known .generalization
  · rw [if_pos hk, if_pos (RelationshipKind.isGeneralization_iff.mpr hk)]
    unfold endNames? ends? class?
    cases m.classes.find? (·.key = r.source) with
    | none => rfl
    | some c =>
        cases m.classes.find? (·.key = r.target) with
        | none => rfl
        | some p =>
            by_cases hc : c.name = child
            · simp [Option.filter, hc]
            · simp [Option.filter, hc]
  · rw [if_neg hk, if_neg fun h => hk (RelationshipKind.isGeneralization_iff.mp h)]
    rfl

/-- The parent of a class is its first one. -/
theorem parent?_eq_firstParent? (m : Model) (child : String) :
    m.inheritance.parent? child = m.firstParent? child := by
  rw [inheritance, Inheritance.parent?_ofLinks, generalizations_eq, map_find?_filterMap, firstParent?]
  simp only [givenParent?_eq]

/-! ## Models with the same skeleton -/

/-- A skeleton is made of the classes, their parents, and the trailer. -/
theorem skeleton_congr {m n : Model} {o : Options} {target : Target} (hc : m.classes = n.classes)
    (hp : ∀ name, m.inheritance.parent? name = n.inheritance.parent? name)
    (ht : o.trailer = true → m.trailer target = n.trailer target) :
    m.skeleton o target = n.skeleton o target := by
  have hblock : m.block o target = n.block o target := by
    funext c
    rw [block, hp, ← block]
  have hsections : m.sections o target = n.sections o target := by
    unfold sections
    rw [hblock, hc]
    split
    · next h => rw [ht h]
    · rfl
  rw [skeleton, layout_eq, hsections, ← layout_eq, skeleton]

/-! ## Relationships that change nothing -/

end Model

/-- After the relationships in `before` this one gives no class a parent. -/
inductive Idle (classes : List Class) (before : List Relationship) (r : Relationship) : Prop
  /-- It is no generalization. -/
  | otherKind (h : r.kind ≠ .known .generalization)
  /-- One of its keys leads nowhere. -/
  | dangling (h : (∀ c ∈ classes, c.key ≠ r.source) ∨ ∀ c ∈ classes, c.key ≠ r.target)
  /-- It comes too late: the child has a parent already. -/
  | late {earlier : Relationship} (hmem : earlier ∈ before) {child : String}
      (hr : (r.givenParent? classes child).isSome)
      (hearlier : (earlier.givenParent? classes child).isSome)

/-- A relationship gives a parent to classes of one name only. -/
theorem Relationship.eq_of_givenParent? {r : Relationship} {classes : List Class} {a b : String}
    (ha : (r.givenParent? classes a).isSome) (hb : (r.givenParent? classes b).isSome) : a = b := by
  unfold givenParent? at ha hb
  split at ha
  · next hk =>
      rw [if_pos hk] at hb
      cases hc : classes.find? (·.key = r.source) with
      | none => simp [hc] at ha
      | some c =>
          cases hp : classes.find? (·.key = r.target) with
          | none => simp [hc, hp] at ha
          | some p =>
              have hca : c.name = a := by simpa [hc, hp] using ha
              have hcb : c.name = b := by simpa [hc, hp] using hb
              exact hca.symm.trans hcb
  · cases ha

theorem Idle.eq_none_or {classes : List Class} {before : List Relationship} {r : Relationship}
    (h : Idle classes before r) (child : String) :
    r.givenParent? classes child = none ∨
      ∃ e ∈ before, (e.givenParent? classes child).isSome := by
  cases h with
  | otherKind h => exact .inl (if_neg h)
  | dangling h =>
      left
      unfold Relationship.givenParent?
      split
      · rcases h with h | h
        · have hnone : classes.find? (·.key = r.source) = none := by simpa using h
          rw [hnone]
          rfl
        · have hnone : classes.find? (·.key = r.target) = none := by simpa using h
          rw [hnone]
          cases classes.find? (·.key = r.source) <;> rfl
      · rfl
  | late hmem hr hearlier =>
      cases hgiven : r.givenParent? classes child with
      | none => exact .inl rfl
      | some p =>
          have hchild := Relationship.eq_of_givenParent? hr (by rw [hgiven]; rfl)
          exact .inr ⟨_, hmem, hchild ▸ hearlier⟩

/-- What is idle stays so when more relationships come before it. -/
theorem Idle.append {classes : List Class} {before : List Relationship} {r : Relationship}
    (h : Idle classes before r) (more : List Relationship) : Idle classes (before ++ more) r := by
  cases h with
  | otherKind h => exact .otherKind h
  | dangling h => exact .dangling h
  | late hmem hr hearlier => exact .late (List.mem_append_left more hmem) hr hearlier

theorem findSome?_append_cons {f : α → Option β} {xs ys : List α} {a : α}
    (h : f a = none ∨ ∃ x ∈ xs, (f x).isSome) :
    (xs ++ a :: ys).findSome? f = (xs ++ ys).findSome? f := by
  rw [List.findSome?_append, List.findSome?_append]
  rcases h with h | h
  · rw [List.findSome?_cons, h]
  · obtain ⟨b, hb⟩ := Option.isSome_iff_exists.mp (List.findSome?_isSome_iff.mpr h)
    rw [hb, Option.some_or, Option.some_or]

namespace Model

/-- The model without the relationships that lead nowhere. -/
def withoutDangling (m : Model) : Model :=
  ⟨m.classes, m.relationships.filter fun r => (m.ends? r).isSome⟩

theorem resolved_withoutDangling (m : Model) : m.withoutDangling.resolved = m.resolved := by
  unfold resolved withoutDangling
  rw [List.filterMap_filter]
  congr 1
  funext r
  show (if (m.ends? r).isSome then (m.ends? r).map (r, ·) else none) = _
  cases m.ends? r with
  | none => rfl
  | some ends => rfl

/-! ## All together -/

theorem skeleton_idle {classes : List Class} {before : List Relationship} {r : Relationship}
    (h : Idle classes before r) (after : List Relationship) {o : Options} (ho : o.trailer = false)
    (target : Target) :
    (Model.mk classes (before ++ r :: after)).skeleton o target =
      (Model.mk classes (before ++ after)).skeleton o target := by
  refine skeleton_congr rfl ?_ (by simp [ho])
  intro name
  rw [parent?_eq_firstParent?, parent?_eq_firstParent?]
  exact findSome?_append_cons (h.eq_none_or name)

/-- **First parents.** Without a trailer, models with the same classes and the same first parents have the
same skeleton. So it does not matter whether an idle relationship is there, or where from its place on;
and with or without a trailer, relationships that lead nowhere change nothing. -/
theorem skeleton_of_firstParents :
    (∀ m n : Model, m.classes = n.classes → (∀ child, m.firstParent? child = n.firstParent? child) →
      ∀ (o : Options) (target : Target), o.trailer = false →
        m.skeleton o target = n.skeleton o target) ∧
    (∀ (classes : List Class) (before : List Relationship) (r : Relationship),
      Idle classes before r → ∀ (between after : List Relationship) (o : Options) (target : Target),
        o.trailer = false →
          (Model.mk classes (before ++ r :: after)).skeleton o target =
            (Model.mk classes (before ++ after)).skeleton o target ∧
          (Model.mk classes (before ++ r :: (between ++ after))).skeleton o target =
            (Model.mk classes (before ++ (between ++ r :: after))).skeleton o target) ∧
    ∀ (m : Model) (o : Options) (target : Target),
      m.withoutDangling.skeleton o target = m.skeleton o target := by
  refine ⟨?_, ?_, ?_⟩
  · intro m n hc hp o target ho
    refine skeleton_congr hc ?_ (by simp [ho])
    intro name
    rw [parent?_eq_firstParent?, parent?_eq_firstParent?, hp]
  · intro classes before r h between after o target ho
    refine ⟨skeleton_idle h after ho target, ?_⟩
    rw [skeleton_idle h (between ++ after) ho, ← List.append_assoc, ← List.append_assoc,
      skeleton_idle (h.append between) after ho]
  · intro m o target
    have hresolved := m.resolved_withoutDangling
    refine skeleton_congr rfl ?_ ?_
    · intro name
      rw [inheritance, generalizations, hresolved, ← generalizations, ← inheritance]
    · intro _
      rw [trailer, trailerLines, hresolved, ← trailerLines, ← trailer]

/-- A dog is an animal first. That it knows cats and is a pet too does not show in the classes. -/
theorem skeleton_of_dog :
    let classes : List Class :=
      [⟨1, "Animal", [], []⟩, ⟨2, "Dog", [], []⟩, ⟨3, "Pet", [], []⟩]
    let isAnimal : Relationship := ⟨2, 1, .known .generalization, none, none⟩
    let knows : Relationship := ⟨2, 3, .known .association, none, some "0..*"⟩
    let isPet : Relationship := ⟨2, 3, .known .generalization, none, none⟩
    let o : Options := ⟨4, true, false, false⟩
    let m : Model := ⟨classes, [knows, isAnimal, isPet]⟩
    let n : Model := ⟨classes, [isAnimal]⟩
    (∀ child, m.firstParent? child = n.firstParent? child) ∧ m.skeleton o .java = n.skeleton o .java ∧
      Idle classes [isAnimal] isPet ∧
      (Model.mk classes [isAnimal, isPet, knows]).skeleton o .php =
        (Model.mk classes [isAnimal, knows, isPet]).skeleton o .php := by
  intro classes isAnimal knows isPet o m n
  have hparents : ∀ child, m.firstParent? child = n.firstParent? child := by
    intro child
    have hknows : knows.givenParent? classes child = none := rfl
    have hanimal : isAnimal.givenParent? classes child =
        if "Dog" = child then some "Animal" else none := rfl
    have hpet : isPet.givenParent? classes child = if "Dog" = child then some "Pet" else none := rfl
    by_cases hdog : "Dog" = child
    · simp [firstParent?, m, n, hknows, hanimal, hdog]
    · simp [firstParent?, m, n, hknows, hanimal, hpet, hdog]
  have hidle : Idle classes [isAnimal] isPet := by
    have hpet : (isPet.givenParent? classes "Dog").isSome := rfl
    have hanimal : (isAnimal.givenParent? classes "Dog").isSome := rfl
    exact .late (List.mem_singleton.mpr rfl) hpet hanimal
  obtain ⟨hsame, hmove, -⟩ := skeleton_of_firstParents
  exact ⟨hparents, hsame m n rfl hparents o .java rfl, hidle,
    (hmove classes [isAnimal] isPet hidle [knows] [] o .php rfl).2⟩

/-- What is idle may give a class its parent at another place. A dog that is an animal is a pet only in vain,
until that comes first. -/
theorem exists_late_parent_moved_first :
    let classes : List Class :=
      [⟨1, "Animal", [], []⟩, ⟨2, "Dog", [], []⟩, ⟨3, "Pet", [], []⟩]
    let isAnimal : Relationship := ⟨2, 1, .known .generalization, none, none⟩
    let isPet : Relationship := ⟨2, 3, .known .generalization, none, none⟩
    let o : Options := ⟨4, false, false, false⟩
    let m : Model := ⟨classes, [isAnimal, isPet]⟩
    let n : Model := ⟨classes, [isPet, isAnimal]⟩
    Idle classes [isAnimal] isPet ∧ ¬ Idle classes [] isPet ∧
      m.firstParent? "Dog" = some "Animal" ∧ n.firstParent? "Dog" = some "Pet" ∧
      ∀ target, m.skeleton o target ≠ n.skeleton o target := by
  intro classes isAnimal isPet o m n
  refine ⟨.late (List.mem_singleton.mpr rfl) (show (isPet.givenParent? classes "Dog").isSome from rfl) rfl,
    fun hidle => ?_, rfl, rfl, fun target => ?_⟩
  · -- With nothing before it, the generalization is not too late.
    rcases hidle.eq_none_or "Dog" with hnone | ⟨r, hr, -⟩
    · cases hnone
    · cases hr
  · -- One of the parents has a longer name.
    have hsize : sizeOfRows o.indent (rows .start (m.layout o target)) ≠
        sizeOfRows o.indent (rows .start (n.layout o target)) := by
      cases target <;> decide +kernel
    intro h
    refine hsize ?_
    rw [← utf8ByteSize_textOfRows, ← utf8ByteSize_textOfRows]
    exact congrArg String.utf8ByteSize h

end Model

end UmlSkeleton

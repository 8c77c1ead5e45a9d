import Mathlib.Data.List.Nodup
import UmlSkeleton.Proofs.Skeleton.Source

/-!
# Names of accessors

A getter and a setter are named after their property, with its first character in upper case. Two properties
may then share their accessors although their names differ, as `name` and `Name` do, and nothing in a target
compares the names that come out. So accessors are told apart exactly if the capitalized names of the
properties are.

* `Source.Class.accessorNames` — the names of the getters and setters of a class.
* `Model.accessors_distinct_iff` — when they are pairwise distinct, in Java and in PHP.
-/

namespace UmlSkeleton

open Text

/-- The names of the getters and setters of a class, as they are written. -/
def Source.Class.accessorNames (k : Source.Class) : List String :=
  (k.functions.filter (·.role.isAccessor)).map (·.name)

/-- The names of the properties of a class with their first character in upper case. -/
def Class.capitalizedNames (c : Class) : List String := c.properties.map fun p => capitalize p.name

/-- What the accessors of a class are to be called, property by property. -/
def Class.accessorNames (c : Class) : List String :=
  c.properties.flatMap fun p => ["get" ++ capitalize p.name, "set" ++ capitalize p.name]

theorem get_append_ne_set_append (s t : String) : "get" ++ s ≠ "set" ++ t := by
  intro h
  have hhead := congrArg (·.toList.head?) h
  simp at hhead

/-- Two properties share an accessor only if they share both. -/
theorem disjoint_accessors_iff {s t : String} :
    List.Disjoint ["get" ++ s, "set" ++ s] ["get" ++ t, "set" ++ t] ↔ s ≠ t := by
  constructor
  · rintro h rfl
    exact h (List.mem_cons_self ..) (List.mem_cons_self ..)
  · intro hne name hs ht
    simp only [List.mem_cons, List.not_mem_nil, or_false] at hs ht
    rcases hs with rfl | rfl
    · rcases ht with hget | hset
      · exact hne (String.append_right_inj "get" |>.mp hget)
      · exact get_append_ne_set_append s t hset
    · rcases ht with hget | hset
      · exact get_append_ne_set_append t s hget.symm
      · exact hne (String.append_right_inj "set" |>.mp hset)

theorem Class.nodup_accessorNames_iff (c : Class) : c.accessorNames.Nodup ↔ c.capitalizedNames.Nodup := by
  have hpair (p : Property) : ["get" ++ capitalize p.name, "set" ++ capitalize p.name].Nodup := by
    rw [List.nodup_cons, List.mem_singleton]
    exact ⟨get_append_ne_set_append _ _, List.nodup_singleton _⟩
  rw [accessorNames, capitalizedNames, List.nodup_flatMap, and_iff_right fun p _ => hpair p, List.Nodup,
    List.pairwise_map]
  exact List.Pairwise.iff fun p q => disjoint_accessors_iff

/-! ## The targets -/

/-- Around the accessors there may be functions of other kinds. -/
theorem accessorNames_append {before accessors after : List Source.Function} {k : Source.Class}
    (hfunctions : k.functions = before ++ accessors ++ after)
    (haccessors : ∀ f ∈ accessors, f.role.isAccessor = true)
    (hbefore : ∀ f ∈ before, f.role.isAccessor ≠ true) (hafter : ∀ f ∈ after, f.role.isAccessor ≠ true) :
    k.accessorNames = accessors.map (·.name) := by
  rw [Source.Class.accessorNames, hfunctions, List.filter_append, List.filter_append,
    List.filter_eq_nil_iff.mpr hbefore, List.filter_eq_self.mpr haccessors, List.filter_eq_nil_iff.mpr hafter,
    List.nil_append, List.append_nil]

theorem Java.accessorNames_classSource (o : Options) (parent : Option String) (c : Class) :
    (classSource o parent c).accessorNames = c.accessorNames := by
  have hfunctions : (classSource o parent c).functions =
      [constructorSource o parent c] ++ (c.properties.flatMap fun p => [getterSource p, setterSource p]) ++
        (c.methods.map (methodSource o parent.isSome) ++ parent.toList.map (toStringSource · c)) :=
    List.append_assoc ..
  rw [accessorNames_append hfunctions, List.map_flatMap]
  · rfl
  · rw [Source.forall_mem_accessors_iff]
    exact fun _ _ => ⟨rfl, rfl⟩
  · rw [List.forall_mem_singleton]
    exact Bool.false_ne_true
  · rw [List.forall_mem_append, List.forall_mem_map, List.forall_mem_map]
    exact ⟨fun _ _ => Bool.false_ne_true, fun _ _ => Bool.false_ne_true⟩

theorem Php.accessorNames_classSource (o : Options) (parent : Option String) (c : Class) :
    (classSource o parent c).accessorNames = if o.phpAccessors then c.accessorNames else [] := by
  have hfunctions : (classSource o parent c).functions = [constructorSource o parent c] ++
      (if o.phpAccessors then c.properties.flatMap fun p => [getterSource o p, setterSource o p] else []) ++
        c.methods.map (methodSource o) := rfl
  rw [accessorNames_append hfunctions]
  · split
    · rw [List.map_flatMap]
      rfl
    · rfl
  · split
    · rw [Source.forall_mem_accessors_iff]
      exact fun _ _ => ⟨rfl, rfl⟩
    · exact List.forall_mem_nil _
  · rw [List.forall_mem_singleton]
    exact Bool.false_ne_true
  · rw [List.forall_mem_map]
    exact fun _ _ => Bool.false_ne_true

namespace Model

/-- **Accessors.** A skeleton is the text of its declarations. The getters and setters of a Java class have
pairwise distinct names exactly if the capitalized names of its properties are pairwise distinct. The same
holds for PHP, if accessors are asked for. -/
theorem accessors_distinct_iff (m : Model) (o : Options) :
    (∀ target, m.skeleton o target = m.sourceText o target) ∧
      ∀ c ∈ m.classes,
        ((Java.classSource o (m.inheritance.parent? c.name) c).accessorNames.Nodup ↔
          c.capitalizedNames.Nodup) ∧
        ((Php.classSource o (m.inheritance.parent? c.name) c).accessorNames.Nodup ↔
          (o.phpAccessors = true → c.capitalizedNames.Nodup)) := by
  refine ⟨m.skeleton_eq_sourceText o, fun c _ => ⟨?_, ?_⟩⟩
  · rw [Java.accessorNames_classSource, c.nodup_accessorNames_iff]
  · rw [Php.accessorNames_classSource]
    cases o.phpAccessors with
    | true => simp [c.nodup_accessorNames_iff]
    | false => simp

/-- The properties `name` and `Name` have different names, but the same accessors. -/
theorem accessors_collide :
    let c : Class := ⟨1, "Person", [⟨"name", ⟨"string"⟩, .ofText "private"⟩,
      ⟨"Name", ⟨"string"⟩, .ofText "private"⟩], []⟩
    let o : Options := { Options.default with phpAccessors := true }
    (c.properties.map (·.name)).Nodup ∧ (∀ p ∈ c.properties, p.name ≠ "") ∧
      ¬ (Java.classSource o none c).accessorNames.Nodup ∧ ¬ (Php.classSource o none c).accessorNames.Nodup := by
  intro c o
  rw [Java.accessorNames_classSource, Php.accessorNames_classSource]
  decide

end Model

end UmlSkeleton

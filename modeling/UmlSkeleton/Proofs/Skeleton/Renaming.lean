import Mathlib.Data.List.Basic
import Mathlib.Data.List.Find
import UmlSkeleton.Model.Defect
import UmlSkeleton.Proofs.Model.Sound
import UmlSkeleton.Proofs.Skeleton.Sections

/-!
# Keys are names for nothing else

A key is there to be equal or not equal to other keys. `Model.mapKeys` gives every class and every end of
a relationship another key; if different keys of the model stay different, then nothing that is written
or decided changes, except that reports about keys name the new ones. It does not matter whether the
model is sound, how the new keys are ordered, or what becomes of keys that the model does not use.

* `class?_mapKeys`, `ends?_mapKeys` — looking up after renaming is renaming after looking up.
* `firstDefect?_mapKeys` — the check through the classes finds the renamed defect.
* `mapKeys_equivariant` — inheritance, trailer, skeletons, defects and findings.
-/

namespace UmlSkeleton

/-! ## Renaming -/

def Class.mapKey (f : Key → Key) (c : Class) : Class := { c with key := f c.key }

def Relationship.mapKeys (f : Key → Key) (r : Relationship) : Relationship :=
  { r with source := f r.source, target := f r.target }

def Defect.mapKeys (f : Key → Key) : Defect → Defect
  | .duplicateKey key => .duplicateKey (f key)
  | .blankName key => .blankName (f key)
  | .duplicateName name first second => .duplicateName name (f first) (f second)

def Failure.mapKeys (f : Key → Key) : Failure → Failure
  | .defect d => .defect (d.mapKeys f)
  | failure => failure

def Findings.mapKeys (f : Key → Key) (h : Findings) : Findings :=
  { h with dangling := h.dangling.map (·.mapKeys f) }

namespace Model

def mapKeys (f : Key → Key) (m : Model) : Model :=
  ⟨m.classes.map (·.mapKey f), m.relationships.map (·.mapKeys f)⟩

/-- The keys that occur in a model. -/
def keys (m : Model) : List Key :=
  m.classes.map (·.key) ++ m.relationships.flatMap fun r => [r.source, r.target]

theorem key_mem_keys {m : Model} {c : Class} (hc : c ∈ m.classes) : c.key ∈ m.keys :=
  List.mem_append_left _ (List.mem_map_of_mem hc)

theorem ends_mem_keys {m : Model} {r : Relationship} (hr : r ∈ m.relationships) :
    r.source ∈ m.keys ∧ r.target ∈ m.keys := by
  constructor
  · exact List.mem_append_right _ (List.mem_flatMap.mpr ⟨r, hr, by simp⟩)
  · exact List.mem_append_right _ (List.mem_flatMap.mpr ⟨r, hr, by simp⟩)

/-! ## Looking up -/

section
variable {m : Model} {f : Key → Key} (hf : ∀ a ∈ m.keys, ∀ b ∈ m.keys, f a = f b → a = b)
include hf

theorem class?_mapKeys {key : Key} (hkey : key ∈ m.keys) :
    (m.mapKeys f).class? (f key) = (m.class? key).map (·.mapKey f) := by
  have hsame : ∀ c ∈ m.classes, decide (f c.key = f key) = decide (c.key = key) := by
    intro c hc
    rw [decide_eq_decide]
    exact ⟨hf _ (key_mem_keys hc) _ hkey, congrArg f⟩
  unfold class? mapKeys
  rw [List.find?_map]
  exact congrArg (Option.map _) (List.find?_congr hsame)

theorem ends?_mapKeys {r : Relationship} (hr : r ∈ m.relationships) :
    (m.mapKeys f).ends? (r.mapKeys f) =
      (m.ends? r).map fun (source, other) => (source.mapKey f, other.mapKey f) := by
  obtain ⟨hsource, htarget⟩ := ends_mem_keys hr
  have hs : (m.mapKeys f).class? (r.mapKeys f).source = _ := class?_mapKeys hf hsource
  have ht : (m.mapKeys f).class? (r.mapKeys f).target = _ := class?_mapKeys hf htarget
  unfold ends?
  rw [hs, ht]
  cases m.class? r.source with
  | none => rfl
  | some source =>
      cases m.class? r.target with
      | none => rfl
      | some other => rfl

theorem endNames?_mapKeys {r : Relationship} (hr : r ∈ m.relationships) :
    (m.mapKeys f).endNames? (r.mapKeys f) = m.endNames? r := by
  unfold endNames?
  rw [ends?_mapKeys hf hr, Option.map_map]
  rfl

/-! ## What is made of relationships -/

theorem inheritance_mapKeys : (m.mapKeys f).inheritance = m.inheritance := by
  have hlink : ∀ r ∈ m.relationships, (m.mapKeys f).link? (r.mapKeys f) = m.link? r := by
    intro r hr
    rw [link?, endNames?_mapKeys hf hr]
    rfl
  rw [inheritance, generalizations_eq, mapKeys, List.filterMap_map]
  rw [inheritance, generalizations_eq]
  exact congrArg Inheritance.ofLinks (List.filterMap_congr hlink)

theorem trailerLines_mapKeys (target : Target) :
    (m.mapKeys f).trailerLines target = m.trailerLines target := by
  rw [trailerLines_eq, trailerLines_eq, mapKeys, List.filterMap_map]
  congr 1
  refine List.filterMap_congr fun r hr => ?_
  have hnames := endNames?_mapKeys hf hr
  rw [mapKeys] at hnames
  rw [Function.comp_apply, hnames]
  rfl

theorem dangling_mapKeys : (m.mapKeys f).dangling = m.dangling.map (·.mapKeys f) := by
  unfold dangling
  show (m.relationships.map (·.mapKeys f)).filter _ = _
  rw [List.filter_map]
  refine congrArg (List.map _) (List.filter_congr fun r hr => ?_)
  rw [Function.comp_apply, ends?_mapKeys hf hr, Option.isNone_map]

/-! ## Skeletons -/

omit hf in
/-- No target writes the key of a class. -/
theorem block_mapKey (target : Target) (o : Options) (parent : Option String) (c : Class) :
    target.dialect.block o parent (c.mapKey f) = target.dialect.block o parent c := by
  cases target with
  | java => rfl
  | php => rfl
  | python => rfl

theorem skeleton_mapKeys (o : Options) (target : Target) :
    (m.mapKeys f).skeleton o target = m.skeleton o target := by
  have hblocks : (m.mapKeys f).classes.map ((m.mapKeys f).block o target) =
      m.classes.map (m.block o target) := by
    rw [mapKeys, List.map_map]
    refine List.map_congr_left fun c _ => ?_
    rw [Function.comp_apply, block, ← mapKeys, inheritance_mapKeys hf, block_mapKey]
    rfl
  have hsections : (m.mapKeys f).sections o target = m.sections o target := by
    rw [sections, hblocks, trailer, trailerLines_mapKeys hf, ← trailer, sections]
  rw [skeleton, layout_eq, hsections, ← layout_eq, skeleton]

end

end Model

/-! ## Defects -/

section
variable {f : Key → Key}

theorem Class.defect?_mapKey {earlier : List Class} {c : Class}
    (hf : ∀ d ∈ earlier, f d.key = f c.key → d.key = c.key) :
    (c.mapKey f).defect? (earlier.map (·.mapKey f)) = (c.defect? earlier).map (·.mapKeys f) := by
  have hkey : (earlier.map (·.mapKey f)).any (·.key = (c.mapKey f).key) =
      earlier.any (·.key = c.key) := by
    rw [Bool.eq_iff_iff, List.any_map, List.any_eq_true, List.any_eq_true]
    refine exists_congr fun d => and_congr_right fun hd => ?_
    rw [Function.comp_apply, decide_eq_true_iff, decide_eq_true_iff]
    exact ⟨hf d hd, congrArg f⟩
  have hname : (earlier.map (·.mapKey f)).find? (·.name = (c.mapKey f).name) =
      (earlier.find? (·.name = c.name)).map (·.mapKey f) := List.find?_map
  unfold Class.defect?
  rw [hkey, hname, Option.map_map]
  split
  · rfl
  · show (if Text.allBlank c.name then _ else _) = _
    split
    · rfl
    · rw [Option.map_map]
      rfl

/-- The check goes through the renamed classes as through the old ones. -/
theorem firstDefect?_mapKeys {earlier classes : List Class}
    (hf : ∀ c ∈ earlier ++ classes, ∀ d ∈ earlier ++ classes, f c.key = f d.key → c.key = d.key) :
    firstDefect? (earlier.map (·.mapKey f)) (classes.map (·.mapKey f)) =
      (firstDefect? earlier classes).map (·.mapKeys f) := by
  induction classes generalizing earlier with
  | nil => rfl
  | cons c more ih =>
      have hc : ∀ d ∈ earlier, f d.key = f c.key → d.key = c.key := fun d hd =>
        hf d (List.mem_append_left _ hd) c (by simp)
      have hmore : firstDefect? ((earlier ++ [c]).map (·.mapKey f)) (more.map (·.mapKey f)) =
          (firstDefect? (earlier ++ [c]) more).map (·.mapKeys f) := ih (by rwa [List.append_assoc])
      rw [List.map_append] at hmore
      rw [List.map_cons, firstDefect?, firstDefect?, Class.defect?_mapKey hc, Option.map_or, ← hmore]
      rfl

end

namespace Model

section
variable {m : Model} {f : Key → Key} (hf : ∀ a ∈ m.keys, ∀ b ∈ m.keys, f a = f b → a = b)
include hf

theorem check_mapKeys : (m.mapKeys f).check = m.check.mapError (·.mapKeys f) := by
  have hclasses : ∀ c ∈ [] ++ m.classes, ∀ d ∈ [] ++ m.classes, f c.key = f d.key → c.key = d.key :=
    fun c hc d hd => hf _ (key_mem_keys hc) _ (key_mem_keys hd)
  have hdefect : (m.mapKeys f).defect? = m.defect?.map (·.mapKeys f) := by
    rw [defect?_eq_firstDefect?, defect?_eq_firstDefect?]
    exact firstDefect?_mapKeys hclasses
  unfold check
  rw [hdefect]
  cases m.defect? with
  | none => rfl
  | some d => rfl

/-! ## All together -/

/-- **Renaming.** If different keys of a model stay different, a model with renamed keys has the same
inheritance, the same trailers and the same skeletons; it is sound exactly if the old model is, and its
defect and its findings are the old ones with the keys renamed. -/
theorem mapKeys_equivariant :
    (m.mapKeys f).inheritance = m.inheritance ∧
      (∀ target, (m.mapKeys f).trailerLines target = m.trailerLines target) ∧
      (∀ o target, (m.mapKeys f).skeleton o target = m.skeleton o target ∧
        (m.mapKeys f).generate o target = (m.generate o target).mapError (·.mapKeys f)) ∧
      (m.mapKeys f).check = m.check.mapError (·.mapKeys f) ∧
      (m.mapKeys f).inspect = m.inspect.mapKeys f := by
  have hcheck := check_mapKeys hf
  refine ⟨inheritance_mapKeys hf, trailerLines_mapKeys hf, ?_, hcheck, ?_⟩
  · intro o target
    refine ⟨skeleton_mapKeys hf o target, ?_⟩
    unfold generate
    rw [hcheck, skeleton_mapKeys hf]
    cases m.check with
    | ok u => rfl
    | error failure => rfl
  · rw [inspect, dangling_mapKeys hf, inheritance_mapKeys hf]
    rfl

end

/-- Two classes of one key, a class without a name and a relationship that leads nowhere: the new keys are
in another order, and a key that is not used falls together with one that is. -/
theorem mapKeys_equivariant_of_pets :
    let m : Model := ⟨[⟨1, "Animal", [], []⟩, ⟨2, "Dog", [], []⟩, ⟨2, " ", [], []⟩],
      [⟨2, 1, .known .generalization, none, none⟩, ⟨2, 7, .ofText "owns", none, none⟩]⟩
    let f : Key → Key := fun key => if key = 1 then 50 else if key = 2 then -3 else 8
    (∀ a ∈ m.keys, ∀ b ∈ m.keys, f a = f b → a = b) ∧ f 9 = f 7 ∧
      (m.mapKeys f).skeleton .default .php = m.skeleton .default .php ∧
      (m.mapKeys f).check = .error (.defect (.duplicateKey (-3))) ∧
      (m.mapKeys f).inspect.dangling = [⟨-3, 8, .ofText "owns", none, none⟩] := by
  intro m f
  have hall : (m.keys.all fun a => m.keys.all fun b => f a = f b → a = b) = true := by decide
  have hf : ∀ a ∈ m.keys, ∀ b ∈ m.keys, f a = f b → a = b := by simpa [imp_iff_not_or] using hall
  obtain ⟨-, -, hskeleton, hcheck, hinspect⟩ := mapKeys_equivariant hf
  exact ⟨hf, rfl, (hskeleton .default .php).1, hcheck.trans rfl, by rw [hinspect]; rfl⟩

end Model

end UmlSkeleton

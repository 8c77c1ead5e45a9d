import Mathlib.Data.List.Nodup
import UmlSkeleton.Proofs.Model.Outline

/-!
# What inheritance keeps and what it rejects

Links are taken in one after the other. What becomes of a link depends on the links before it only
through the first one of the same child: without one it is kept, and otherwise it either repeats it
or is rejected in favour of it. `fates` says so for every link of a list, without looking at any
`Inheritance`.

* `Tracks` — the invariant: an inheritance has kept and rejected what the links seen so far say.
* `Tracks.add`, `tracks_ofLinks` — one more link keeps it, so it holds after any list of links.
* `inheritance_resolves` — the inheritance of any model, sound or not.
-/

namespace UmlSkeleton

/-! ## Fates -/

/-- What becomes of a link. -/
inductive Fate where
  /-- It is the first one of its child. -/
  | kept
  /-- The first one of its child has the same parent. -/
  | repeated
  /-- The first one of its child has this other parent. -/
  | rejected (kept : String)
  deriving DecidableEq, Repr

/-- What becomes of a link after the links in `seen`. -/
def Link.fate (seen : List Link) (link : Link) : Fate :=
  match seen.find? (·.child = link.child) with
  | none => .kept
  | some first => if first.parent = link.parent then .repeated else .rejected first.parent

/-- The links with their fates, in order, `seen` being those before them. -/
def fates (seen : List Link) : List Link → List (Link × Fate)
  | [] => []
  | link :: more => (link, link.fate seen) :: fates (seen ++ [link]) more

/-- The link, if it is kept. -/
def keptLink? : Link × Fate → Option Link
  | (link, .kept) => some link
  | _ => none

/-- The link, if it repeats the one that was kept. -/
def repeatedLink? : Link × Fate → Option Link
  | (link, .repeated) => some link
  | _ => none

/-- The conflict, if the link is rejected. -/
def conflict? : Link × Fate → Option Conflict
  | (link, .rejected kept) => some ⟨link.child, kept, link.parent⟩
  | _ => none

/-- The link that a conflict is about. -/
def Conflict.link (c : Conflict) : Link := ⟨c.child, c.rejected⟩

theorem fates_append (seen xs ys : List Link) :
    fates seen (xs ++ ys) = fates seen xs ++ fates (seen ++ xs) ys := by
  induction xs generalizing seen with
  | nil => rw [List.append_nil]; rfl
  | cons x xs ih =>
      rw [List.cons_append, fates, fates, ih, List.append_assoc]
      rfl

theorem fates_concat (links : List Link) (link : Link) :
    fates [] (links ++ [link]) = fates [] links ++ [(link, link.fate links)] :=
  fates_append [] links [link]

/-- Every link has one fate, so it is in exactly one of the three lists. -/
theorem perm_fates (seen links : List Link) :
    links.Perm ((fates seen links).filterMap keptLink? ++
      (fates seen links).filterMap repeatedLink? ++
      ((fates seen links).filterMap conflict?).map Conflict.link) := by
  induction links generalizing seen with
  | nil => exact List.Perm.nil
  | cons link links ih =>
      have htail := (ih (seen ++ [link])).cons link
      rw [fates]
      cases link.fate seen with
      | kept => exact htail
      | repeated =>
          refine htail.trans ?_
          simp only [List.filterMap_cons, keptLink?, repeatedLink?, conflict?, List.append_assoc,
            List.cons_append]
          exact List.perm_middle.symm
      | rejected kept =>
          refine htail.trans ?_
          simp only [List.filterMap_cons, keptLink?, repeatedLink?, conflict?, List.map_cons]
          exact List.perm_middle.symm

/-- A link in a list has its fate from the links before it. -/
theorem exists_of_mem_fates {seen links : List Link} {link : Link} {fate : Fate}
    (h : (link, fate) ∈ fates seen links) :
    ∃ before after, links = before ++ link :: after ∧ fate = link.fate (seen ++ before) := by
  induction links generalizing seen with
  | nil => cases h
  | cons first more ih =>
      rw [fates] at h
      rcases List.mem_cons.mp h with h | h
      · obtain ⟨rfl, rfl⟩ := Prod.mk.inj h
        exact ⟨[], more, rfl, by rw [List.append_nil]⟩
      · obtain ⟨before, after, rfl, rfl⟩ := ih h
        exact ⟨first :: before, after, rfl, by rw [List.append_assoc]; rfl⟩

/-- The conflict of a link among others: the first one of its child has another parent. -/
def Link.conflictAmong (links : List Link) (link : Link) : Option Conflict := do
  let first ← links.find? (·.child = link.child)
  if first.parent = link.parent then none else some ⟨link.child, first.parent, link.parent⟩

/-- The links that are rejected can be found without looking at what comes before each of them: the first
one of a child is in no conflict with itself. -/
theorem filterMap_conflict?_fates (seen links : List Link) :
    (fates seen links).filterMap conflict? = links.filterMap (Link.conflictAmong (seen ++ links)) := by
  induction links generalizing seen with
  | nil => rfl
  | cons link links ih =>
      have hlink : conflict? (link, link.fate seen) = link.conflictAmong (seen ++ link :: links) := by
        unfold Link.fate Link.conflictAmong
        rw [List.find?_append]
        cases seen.find? (·.child = link.child) with
        | none => simp [conflict?]
        | some first =>
            by_cases hsame : first.parent = link.parent
            · simp [hsame, conflict?]
            · simp [hsame, conflict?]
      rw [fates, List.filterMap_cons, List.filterMap_cons, hlink, ih, List.append_assoc,
        List.singleton_append]

namespace Inheritance

/-! ## One more link -/

/-- A link gives its child a parent if the child has none, and changes no other child. -/
theorem parent?_add (h : Inheritance) (link : Link) (c : String) :
    (h.add link).parent? c =
      (h.parent? c).or (if link.child = c then some link.parent else none) := by
  unfold add
  cases hp : h.parent? link.child with
  | none =>
      simp only [parent?, List.find?_append]
      cases h.links.find? (·.child = c) with
      | some first => rfl
      | none =>
          by_cases hc : link.child = c
          · simp [hc]
          · simp [hc]
  | some kept =>
      have hkeep : h.parent? c =
          (h.parent? c).or (if link.child = c then some link.parent else none) := by
        by_cases hc : link.child = c
        · subst hc
          rw [hp]
          rfl
        · rw [if_neg hc, Option.or_none]
      by_cases hsame : kept = link.parent
      · simp only [if_pos hsame]
        exact hkeep
      · simp only [if_neg hsame]
        exact hkeep

/-- A child without a parent has no link. -/
theorem child_ne_of_parent?_eq_none {h : Inheritance} {c : String} (hp : h.parent? c = none) :
    ∀ link ∈ h.links, link.child ≠ c := by
  intro link hlink
  rw [parent?, Option.map_eq_none_iff, List.find?_eq_none] at hp
  simpa using hp link hlink

/-! ## The invariant -/

/-- The inheritance has taken in the links in `seen`, and nothing else. -/
structure Tracks (h : Inheritance) (seen : List Link) : Prop where
  parent?_eq : ∀ c, h.parent? c = (seen.find? (·.child = c)).map (·.parent)
  nodup : (h.links.map (·.child)).Nodup
  links_eq : h.links = (fates [] seen).filterMap keptLink?
  conflicts_eq : h.conflicts = (fates [] seen).filterMap conflict?

theorem tracks_empty : empty.Tracks [] := ⟨fun _ => rfl, List.nodup_nil, rfl, rfl⟩

/-- What an inheritance does with a link is what the links before it make of it. -/
theorem Tracks.add_eq {h : Inheritance} {seen : List Link} (ht : h.Tracks seen) (link : Link) :
    h.add link = ⟨h.links ++ (keptLink? (link, link.fate seen)).toList,
      h.conflicts ++ (conflict? (link, link.fate seen)).toList⟩ := by
  unfold Inheritance.add Link.fate
  rw [ht.parent?_eq]
  cases seen.find? (·.child = link.child) with
  | none => simp [keptLink?, conflict?]
  | some first =>
      by_cases hsame : first.parent = link.parent
      · simp [hsame, keptLink?, conflict?]
      · simp [hsame, keptLink?, conflict?]

theorem Tracks.add {h : Inheritance} {seen : List Link} (ht : h.Tracks seen) (link : Link) :
    (h.add link).Tracks (seen ++ [link]) where
  parent?_eq c := by
    rw [parent?_add, ht.parent?_eq, List.find?_append]
    cases seen.find? (·.child = c) with
    | some first => rfl
    | none =>
        by_cases hc : link.child = c
        · simp [hc]
        · simp [hc]
  nodup := by
    unfold Inheritance.add
    split
    · next hp =>
        -- The link is kept because no link of its child was.
        have hne := child_ne_of_parent?_eq_none hp
        rw [List.map_append, List.nodup_append]
        refine ⟨ht.nodup, List.nodup_singleton _, ?_⟩
        intro a ha b hb hab
        obtain ⟨first, hfirst, rfl⟩ := List.mem_map.mp ha
        exact hne first hfirst (hab.trans (List.mem_singleton.mp hb))
    · split
      · exact ht.nodup
      · exact ht.nodup
  links_eq := by
    rw [ht.add_eq, fates_concat, List.filterMap_append, ← ht.links_eq]
    cases link.fate seen with
    | kept => rfl
    | repeated => rfl
    | rejected kept => rfl
  conflicts_eq := by
    rw [ht.add_eq, fates_concat, List.filterMap_append, ← ht.conflicts_eq]
    cases link.fate seen with
    | kept => rfl
    | repeated => rfl
    | rejected kept => rfl

/-- Any number of links. -/
theorem Tracks.foldl {h : Inheritance} {seen : List Link} (ht : h.Tracks seen)
    (links : List Link) : (links.foldl Inheritance.add h).Tracks (seen ++ links) := by
  induction links generalizing h seen with
  | nil => rw [List.append_nil]; exact ht
  | cons link links ih =>
      have := ih (ht.add link)
      rwa [List.append_assoc] at this

theorem tracks_ofLinks (links : List Link) : (ofLinks links).Tracks links :=
  tracks_empty.foldl links

/-- The parent of a child is that of its first link. -/
theorem parent?_ofLinks (links : List Link) (c : String) :
    (ofLinks links).parent? c = (links.find? (·.child = c)).map (·.parent) :=
  (tracks_ofLinks links).parent?_eq c

/-! ## Children in order -/

/-- With no child twice, the links are the pairs of a child and its parent. -/
theorem mem_links_iff {h : Inheritance} (hn : (h.links.map (·.child)).Nodup) (link : Link) :
    link ∈ h.links ↔ h.parent? link.child = some link.parent := by
  constructor
  · intro hlink
    cases hp : h.parent? link.child with
    | none => exact absurd rfl (child_ne_of_parent?_eq_none hp link hlink)
    | some p =>
        obtain ⟨first, hfirst, rfl⟩ := Option.map_eq_some_iff.mp hp
        have hchild : first.child = link.child := by simpa using List.find?_some hfirst
        rw [List.inj_on_of_nodup_map hn (List.mem_of_find?_eq_some hfirst) hlink hchild]
  · intro hp
    obtain ⟨first, hfirst, hparent⟩ := Option.map_eq_some_iff.mp hp
    have hchild : first.child = link.child := by simpa using List.find?_some hfirst
    have heq : first = link := by
      cases first
      cases link
      simp_all
    exact heq ▸ List.mem_of_find?_eq_some hfirst

theorem perm_sorted (h : Inheritance) : h.sorted.Perm h.links := List.mergeSort_perm _ _

/-- Sorting a list with no child twice puts the children in strictly increasing order. -/
theorem pairwise_sorted {h : Inheritance} (hn : (h.links.map (·.child)).Nodup) :
    h.sorted.Pairwise (·.child < ·.child) := by
  have hle : h.sorted.Pairwise fun a b => decide (a.child ≤ b.child) = true := by
    apply List.pairwise_mergeSort
    · intro a b c hab hbc
      exact decide_eq_true (String.le_trans (of_decide_eq_true hab) (of_decide_eq_true hbc))
    · intro a b
      rw [Bool.or_eq_true, decide_eq_true_iff, decide_eq_true_iff]
      exact String.le_total _ _
  -- Sorting only permutes, so no child is there twice and equal neighbours cannot occur.
  have hne : h.sorted.Pairwise fun a b => a.child ≠ b.child :=
    List.pairwise_map.mp ((h.perm_sorted.map Link.child).nodup_iff.mpr hn)
  refine (hle.and hne).imp ?_
  rintro a b ⟨hab, hab'⟩
  apply String.not_le.mp
  intro hba
  exact hab' (String.le_antisymm (of_decide_eq_true hab) hba)

/-! ## What it resolves to -/

/-- What an inheritance says about the links it is made from. -/
structure Resolves (h : Inheritance) (links : List Link) : Prop where
  /-- The parent of a child is that of its first link. -/
  parent?_eq_some_iff : ∀ c p, h.parent? c = some p ↔ links.find? (·.child = c) = some ⟨c, p⟩
  /-- The conflicts are, in order, the links after the first one of their child with a parent other
  than that one has. -/
  conflicts_eq : h.conflicts = (fates [] links).filterMap conflict?
  /-- What a conflict says was kept is the parent of the child. -/
  parent?_of_mem_conflicts : ∀ k ∈ h.conflicts, h.parent? k.child = some k.kept
  /-- The pairs are listed by their children, and no child is listed twice. -/
  pairwise_sorted : h.sorted.Pairwise (·.child < ·.child)
  /-- They are all the children with their parents. -/
  mem_sorted_iff : ∀ link, link ∈ h.sorted ↔ h.parent? link.child = some link.parent
  /-- Every link is listed, or repeats one that is, or is in a conflict: one of the three, once. -/
  perm : links.Perm (h.sorted ++ (fates [] links).filterMap repeatedLink? ++
    h.conflicts.map Conflict.link)

theorem parent?_of_mem_conflict {links : List Link} {k : Conflict}
    (hk : k ∈ (fates [] links).filterMap conflict?) :
    (links.find? (·.child = k.child)).map (·.parent) = some k.kept := by
  obtain ⟨⟨link, fate⟩, hmem, hconflict⟩ := List.mem_filterMap.mp hk
  obtain ⟨before, after, rfl, hfate⟩ := exists_of_mem_fates hmem
  -- The first link of the child stands before the rejected one, so it is the first one of all.
  cases fate with
  | kept => cases hconflict
  | repeated => cases hconflict
  | rejected kept =>
      cases hconflict
      rw [List.nil_append, Link.fate] at hfate
      rw [List.find?_append]
      cases hfirst : before.find? (·.child = link.child) with
      | none => rw [hfirst] at hfate; cases hfate
      | some first =>
          rw [hfirst] at hfate
          by_cases hsame : first.parent = link.parent
          · simp [hsame] at hfate
          · simp only [if_neg hsame, Fate.rejected.injEq] at hfate
            rw [hfate]
            rfl

theorem resolves_ofLinks (links : List Link) : (ofLinks links).Resolves links := by
  have ht := tracks_ofLinks links
  refine ⟨?_, ht.conflicts_eq, ?_, pairwise_sorted ht.nodup, ?_, ?_⟩
  · intro c p
    rw [ht.parent?_eq, Option.map_eq_some_iff]
    constructor
    · rintro ⟨first, hfirst, rfl⟩
      have hchild : first.child = c := by simpa using List.find?_some hfirst
      rw [hfirst, ← hchild]
    · intro hfirst
      exact ⟨⟨c, p⟩, hfirst, rfl⟩
  · intro k hk
    rw [ht.conflicts_eq] at hk
    rw [ht.parent?_eq]
    exact parent?_of_mem_conflict hk
  · intro link
    rw [(perm_sorted _).mem_iff]
    exact mem_links_iff ht.nodup link
  · have hperm := perm_fates [] links
    rw [← ht.links_eq, ← ht.conflicts_eq] at hperm
    exact hperm.trans (((perm_sorted _).symm.append_right _).append_right _)

end Inheritance

/-! ## Models -/

theorem RelationshipKind.isGeneralization_iff {k : RelationshipKind} :
    k.isGeneralization = true ↔ k = .known .generalization := by
  cases k with
  | known kind => cases kind <;> simp [isGeneralization]
  | other text unknown => simp [isGeneralization]

/-- The links of a model, spelled out in terms of its classes and relationships. -/
theorem Model.generalizations_eq_filterMap (m : Model) :
    m.generalizations = m.relationships.filterMap fun r =>
      if r.kind = .known .generalization then do
        let child ← m.classes.find? (·.key = r.source)
        let parent ← m.classes.find? (·.key = r.target)
        return ⟨child.name, parent.name⟩
      else none := by
  rw [generalizations_eq]
  congr 1
  funext r
  unfold link?
  by_cases hk : r.kind = .known .generalization
  · rw [if_pos (RelationshipKind.isGeneralization_iff.mpr hk), if_pos hk]
    unfold endNames? ends? class?
    cases m.classes.find? (·.key = r.source) with
    | none => rfl
    | some child =>
        cases m.classes.find? (·.key = r.target) with
        | none => rfl
        | some parent => rfl
  · rw [if_neg (fun h => hk (RelationshipKind.isGeneralization_iff.mp h)), if_neg hk]

/-- **Inheritance.** In any model, sound or not, the links are the generalizations whose two keys
lead to classes, in order, each with the names of the first classes that have the keys, and the
inheritance says about them what `Inheritance.Resolves` lists. -/
theorem inheritance_resolves (m : Model) :
    m.inheritance.Resolves (m.relationships.filterMap fun r =>
      if r.kind = .known .generalization then do
        let child ← m.classes.find? (·.key = r.source)
        let parent ← m.classes.find? (·.key = r.target)
        return ⟨child.name, parent.name⟩
      else none) := by
  rw [← m.generalizations_eq_filterMap]
  exact Inheritance.resolves_ofLinks m.generalizations

end UmlSkeleton

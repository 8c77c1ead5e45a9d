import UmlSkeleton.Model.Basic

/-!
# Inheritance

Skeletons have single inheritance. The generalizations that resolve are taken in order; each names
a child and a parent. The first one for a child is kept, one that repeats the kept parent changes
nothing, and one with another parent is a conflict. Children and parents are known by their names.
-/

namespace UmlSkeleton

/-- A child and a parent, by name. -/
structure Link where
  child : String
  parent : String
  deriving DecidableEq, Repr

/-- A generalization that was dropped because the child already had a parent. -/
structure Conflict where
  child : String
  kept : String
  rejected : String
  deriving DecidableEq, Repr

/-- The parents that were kept, in order, and the generalizations that were dropped, in order. -/
structure Inheritance where
  links : List Link
  conflicts : List Conflict
  deriving DecidableEq, Repr

/-- The links of the generalizations that resolve, in order. -/
def Model.generalizations (m : Model) : List Link :=
  m.resolved.filterMap fun (r, child, parent) =>
    if r.kind.isGeneralization then some ⟨child.name, parent.name⟩ else none

namespace Inheritance

def empty : Inheritance := ⟨[], []⟩

/-- The parent of a child. -/
def parent? (h : Inheritance) (child : String) : Option String :=
  (h.links.find? (·.child = child)).map (·.parent)

/-- Take in one more link. -/
def add (h : Inheritance) (link : Link) : Inheritance :=
  match h.parent? link.child with
  | none => { h with links := h.links ++ [link] }
  | some kept =>
    if kept = link.parent then h
    else { h with conflicts := h.conflicts ++ [⟨link.child, kept, link.parent⟩] }

/-- The inheritance of a list of links. -/
def ofLinks (links : List Link) : Inheritance := links.foldl add empty

/-- The links in the order of their children's names, which is that of their code points. -/
def sorted (h : Inheritance) : List Link := h.links.mergeSort fun a b => a.child ≤ b.child

end Inheritance

/-- Who inherits from whom in a model. -/
def Model.inheritance (m : Model) : Inheritance := .ofLinks m.generalizations

/-! ### What does not stop a skeleton from being written -/

/-- The relationships and generalizations that leave no trace in a skeleton. -/
structure Findings where
  dangling : List Relationship
  conflicts : List Conflict
  deriving DecidableEq

def Findings.isClean (f : Findings) : Bool := f.dangling.isEmpty && f.conflicts.isEmpty

def Model.inspect (m : Model) : Findings := ⟨m.dangling, m.inheritance.conflicts⟩

end UmlSkeleton

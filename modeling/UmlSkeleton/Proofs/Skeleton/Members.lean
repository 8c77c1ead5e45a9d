import UmlSkeleton.Proofs.Java.View
import UmlSkeleton.Proofs.Layout.Paragraphs
import UmlSkeleton.Proofs.Skeleton.Lines
import UmlSkeleton.Proofs.Skeleton.Sections

/-!
# Members of classes in braces

In Java and PHP a member of a class is a block of lines in braces, perhaps with lines in front of it. Each of
these lines says something, and none is a closing brace alone, so members may have blank lines around them and
have none in them. Fields are written above the members, in PHP with a blank line before each if it is
documented.

* `IsMember` — lines, and then a block of lines in braces.
* `neat_class` — the block of a class is neat, with or without fields.
* `setApart_members` — one blank line stands between its members.
-/

namespace UmlSkeleton

open Python (content isBlank content_line isBlank_line mem_content)
open Text

/-! ## Braces -/

/-- The line ends in an opening brace. -/
def endsOpening (line : String) : Bool := line.toList.getLast? = some '\x7b'

/-- The line is a closing brace. -/
def isClosing (line : String) : Bool := content line = ['\x7d']

theorem endsOpening_line (w : Nat) (row : Row) : endsOpening (row.line w) = endsOpening row.text := by
  unfold Row.line
  split
  · next h => rw [h]
  · next h => rw [endsOpening, getLast?_toList_append h, endsOpening]

theorem isClosing_line (w : Nat) (row : Row) : isClosing (row.line w) = isClosing row.text := by
  rw [isClosing, content_line, isClosing]

/-- The text says something: it has another character in it than spaces and closing braces. -/
def Says (text : String) : Prop := ∃ c ∈ text.toList, c ≠ ' ' ∧ c ≠ '\x7d'

instance (text : String) : Decidable (Says text) :=
  decidable_of_iff (text.toList.any fun c => c != ' ' && c != '\x7d') (by simp [Says])

namespace Says

variable {text : String} (h : Says text)
include h

theorem isBlank : isBlank text = false := by
  obtain ⟨c, hc, hspace, -⟩ := h
  exact isBlank_of_mem hc hspace

theorem isClosing : isClosing text = false := by
  obtain ⟨c, hc, hspace, hbrace⟩ := h
  have hmem := mem_content hc hspace
  rw [UmlSkeleton.isClosing, decide_eq_false_iff_not]
  intro heq
  rw [heq, List.mem_singleton] at hmem
  exact hbrace hmem

end Says

theorem says_append_left {s : String} (h : Says s) (t : String) : Says (s ++ t) := by
  obtain ⟨c, hc, hne⟩ := h
  exact ⟨c, by simp [hc], hne⟩

theorem says_append_right (s : String) {t : String} (h : Says t) : Says (s ++ t) := by
  obtain ⟨c, hc, hne⟩ := h
  exact ⟨c, by simp [hc], hne⟩

theorem says_header (header : String) : Says (header ++ " \x7b") :=
  says_append_right header (by decide)

/-! ### Lines that say something -/

/-- The steps write lines, and each says something. -/
def Speaks (steps : List Step) : Prop := ∃ texts : List String, steps = texts.map .line ∧ ∀ t ∈ texts, Says t

section
variable {xs ys : List Step} {text : String}

theorem speaks_nil : Speaks [] := ⟨[], rfl, List.forall_mem_nil _⟩

theorem Speaks.append (hx : Speaks xs) (hy : Speaks ys) : Speaks (xs ++ ys) := by
  obtain ⟨texts, rfl, htexts⟩ := hx
  obtain ⟨more, rfl, hmore⟩ := hy
  exact ⟨texts ++ more, List.map_append.symm, List.forall_mem_append.mpr ⟨htexts, hmore⟩⟩

theorem Speaks.cons (h : Speaks xs) (htext : Says text) : Speaks (.line text :: xs) := by
  obtain ⟨texts, rfl, htexts⟩ := h
  exact ⟨text :: texts, List.map_cons.symm, List.forall_mem_cons.mpr ⟨htext, htexts⟩⟩

theorem speaks_line (h : Says text) : Speaks [.line text] := speaks_nil.cons h

theorem speaks_map {items : List α} {f : α → String} (h : ∀ a ∈ items, Says (f a)) :
    Speaks (items.map fun a => .line (f a)) :=
  ⟨items.map f, List.map_map.symm, List.forall_mem_map.mpr h⟩

theorem Speaks.stepsIf {condition : Bool} (h : Speaks xs) : Speaks (stepsIf condition xs) := by
  cases condition with
  | false => exact speaks_nil
  | true => exact h

end

/-- A block in braces whose header and the lines in front of it say something. -/
theorem neat_braced {front body : List Step} (header : String) (hfront : Speaks front)
    (hlevel : ∀ d, (Margin.run ⟨d, false⟩ body).depth = d)
    (hbody : ∀ d, Tidy endsOpening isClosing (rowTexts ⟨d, false⟩ body)) :
    Neat endsOpening isClosing (front ++ braced header body) := by
  obtain ⟨front, rfl, htexts⟩ := hfront
  refine Neat.braced (says_header header).isBlank (says_header header).isClosing (by decide) ?_ hlevel hbody
  exact fun t ht => ⟨(htexts t ht).isBlank, (htexts t ht).isClosing⟩

/-! ### Members -/

/-- Lines, and then a block of lines in braces. All of them say something. -/
def IsMember (b : List Step) : Prop :=
  ∃ front header body, b = front ++ braced header body ∧ Speaks front ∧ Speaks body

namespace IsMember

variable {b : List Step} (h : IsMember b)
include h

theorem neat : Neat endsOpening isClosing b := by
  obtain ⟨front, header, -, rfl, hfront, ⟨body, rfl, hbody⟩⟩ := h
  refine neat_braced header hfront (fun d => ?_) (fun d => ?_)
  · exact level_lines (forall_mem_map_line body) _
  · rw [rowTexts_lines]
    exact tidy_of_not_blank fun t ht => (hbody t ht).isBlank

theorem linesOf_ne_nil (w d : Nat) : linesOf w ⟨d, false⟩ b ≠ [] :=
  ((h.neat.paragraph d).linesOf (endsOpening_line w) (isClosing_line w)).ne_nil

/-- A member has no blank lines. -/
theorem isBlank_of_mem (w : Nat) (m : Margin) : ∀ l ∈ linesOf w m b, isBlank l = false := by
  obtain ⟨-, header, -, rfl, ⟨front, rfl, hfront⟩, ⟨body, rfl, hbody⟩⟩ := h
  have htexts : ∀ t ∈ rowTexts m (front.map .line ++ braced header (body.map .line)), isBlank t = false := by
    rw [rowTexts_append, rowTexts_lines, rowTexts_braced, rowTexts_lines, List.forall_mem_append,
      List.forall_mem_cons, List.forall_mem_append, List.forall_mem_singleton]
    exact ⟨fun t ht => (hfront t ht).isBlank, (says_header header).isBlank,
      fun t ht => (hbody t ht).isBlank, by decide⟩
  rw [rowTexts, List.forall_mem_map] at htexts
  rw [linesOf, List.forall_mem_map]
  intro row hrow
  rw [isBlank_line]
  exact htexts row hrow

end IsMember

/-- The parts are written one after the other with one blank line between them, and have none in them. -/
def SetApart (parts : List (List String)) (ls : List String) : Prop :=
  [""].intercalate parts <:+: ls ∧ ∀ part ∈ parts, part ≠ [] ∧ ∀ l ∈ part, isBlank l = false

theorem SetApart.mono {parts : List (List String)} {ls more : List String} (h : SetApart parts ls)
    (hls : ls <:+: more) : SetApart parts more := ⟨h.1.trans hls, h.2⟩

/-! ### Classes -/

section
variable {front fields : List Step} {members : List (List Step)} (header : String)

/-- The block of a class is neat, with or without fields. -/
theorem neat_class (hfront : Speaks front) (hfields : NeatIfAny endsOpening isClosing fields)
    (hmembers : ∀ b ∈ members, IsMember b) (hne : members ≠ []) :
    Neat endsOpening isClosing (front ++ braced header (fields ++ spaced members)) := by
  have hbody : Neat endsOpening isClosing (fields ++ spaced members) :=
    hfields.neat_append_spaced (fun b hb => (hmembers b hb).neat) hne
  refine neat_braced header hfront (fun d => ?_) (fun d => ?_)
  · rw [hbody.run]
  · exact (hbody.paragraph d).toTidy

/-- The members of a class are set apart. -/
theorem setApart_members (hfront : Level front) (hfields : Level fields)
    (hmembers : ∀ b ∈ members, IsMember b) (w : Nat) :
    SetApart (members.map (linesOf w ⟨1, false⟩))
      (linesOf w .start (front ++ braced header (fields ++ spaced members))) := by
  constructor
  · have hdepth : (Margin.run .start (front ++ .enter (header ++ " \x7b") :: fields)).depth = 1 := by
      rw [Margin.run_append, Margin.run_cons, hfields]
      show (Margin.run .start front).depth + 1 = 1
      rw [hfront]
      rfl
    have hsteps : front ++ braced header (fields ++ spaced members) =
        (front ++ .enter (header ++ " \x7b") :: fields) ++ spaced members ++ [.leave "\x7d"] := by
      simp [braced]
    have hspaced := Neat.intercalate_suffix_linesOf (fun b hb => (hmembers b hb).neat) w
      (Margin.run .start (front ++ .enter (header ++ " \x7b") :: fields))
    rw [hdepth] at hspaced
    rw [hsteps]
    exact hspaced.isInfix.trans (infix_linesOf w .start)
  · rw [List.forall_mem_map]
    exact fun b hb => ⟨(hmembers b hb).linesOf_ne_nil w 1, (hmembers b hb).isBlank_of_mem w _⟩

end

theorem endsOpening_semicolon (s : String) : endsOpening (s ++ ";") = false := by
  rw [endsOpening, getLast?_toList_append (by decide)]
  decide

theorem says_semicolon (text : String) : Says (text ++ ";") :=
  says_append_right text (by decide)

/-- Lines that say something are a paragraph if the last of them does not open a block. -/
theorem paragraph_of_says {ls : List String} (hne : ls ≠ []) (h : ∀ l ∈ ls, Says l)
    (hlast : ∀ l ∈ ls.getLast?, endsOpening l = false) : Paragraph endsOpening isClosing ls :=
  paragraph_of_not_blank hne (fun l hl => (h l hl).isBlank)
    (fun l hl => (h l (List.mem_of_head? hl)).isClosing) hlast

/-- Declarations end in a semicolon. -/
theorem neat_declarations {items : List α} {f : α → String} (hne : items ≠ []) :
    Neat endsOpening isClosing (items.map fun a => .line (f a ++ ";")) := by
  have htexts : Paragraph endsOpening isClosing (items.map fun a => f a ++ ";") := by
    refine paragraph_of_says (by simpa using hne) ?_ fun l hl => ?_
    · rw [List.forall_mem_map]
      exact fun a _ => says_semicolon (f a)
    · obtain ⟨a, -, rfl⟩ := List.mem_map.mp (List.mem_of_getLast? hl)
      exact endsOpening_semicolon (f a)
  have hlines := Neat.lines htexts
  rwa [List.map_map] at hlines

/-! ## Java -/

namespace Java

theorem isMember_constructor (o : Options) (parent : Option String) (c : Class) :
    IsMember (constructor o parent c) := by
  have hremark : Says "// Constructor" := by decide
  have hcall : Says (if o.docs then "super(); // Call parent class constructor" else "super();") := by
    cases o.docs with
    | true => decide
    | false => decide
  exact ⟨_, _, _, rfl, (speaks_line hremark).stepsIf, (speaks_line hcall).stepsIf⟩

theorem isMember_method (o : Options) (hasParent : Bool) (f : Method) :
    IsMember (method o hasParent f) := by
  have hnote : Says "// Method can override parent class method if needed" := by decide
  have htodo : Says "// TODO: Implement method body" := by decide
  have hreturn : Says "return null; // Placeholder return" := by decide
  exact ⟨[], _, _, rfl, speaks_nil,
    ((speaks_line hnote).stepsIf.append (speaks_line htodo)).append (speaks_line hreturn).stepsIf⟩

theorem isMember_members (o : Options) (parent : Option String) (c : Class) :
    ∀ b ∈ members o parent c, IsMember b := by
  intro b hb
  simp only [members, List.mem_append, List.mem_cons, List.mem_flatMap, List.mem_map,
    Option.mem_toList] at hb
  rcases hb with ((rfl | ⟨p, -, hb⟩) | ⟨f, -, rfl⟩) | ⟨p, -, rfl⟩
  · exact isMember_constructor o parent c
  · rcases hb with rfl | rfl | hb
    · exact ⟨[], _, _, rfl, speaks_nil, speaks_line (says_semicolon _)⟩
    · exact ⟨[], _, _, rfl, speaks_nil, speaks_line (says_semicolon _)⟩
    · cases hb
  · exact isMember_method o parent.isSome f
  · have hoverride : Says "@Override" := by decide
    have hreturn : Says ("return \"" ++ c.name ++ " [Subclass of " ++ p ++ "]\";") :=
      says_append_right _ (by decide)
    exact ⟨[.line "@Override"], _, _, rfl, speaks_line hoverride, speaks_line hreturn⟩

theorem neat_fields (c : Class) : NeatIfAny endsOpening isClosing (c.properties.flatMap field) := by
  apply NeatIfAny.flatMap
  intro hne
  have hlines : c.properties.flatMap field = c.properties.map fun p => .line (fieldLine p) :=
    (List.map_eq_flatMap ..).symm
  rw [hlines]
  exact neat_declarations hne

theorem neat_classBlock (o : Options) (parent : Option String) (c : Class) :
    Neat endsOpening isClosing (classBlock o parent c) :=
  neat_class _ speaks_nil (neat_fields c) (isMember_members o parent c) (by simp [members])

theorem setApart_classBlock (o : Options) (parent : Option String) (c : Class) (w : Nat) :
    SetApart ((members o parent c).map (linesOf w ⟨1, false⟩)) (linesOf w .start (classBlock o parent c)) :=
  setApart_members (header parent c) level_nil (level_flatMap fun _ _ => (settled_line _).level)
    (isMember_members o parent c) w

end Java

/-! ## PHP -/

namespace Php

theorem speaks_docBlock (o : Options) (texts : List String) : Speaks (docBlock o texts) := by
  have hfirst : Says "/**" := by decide
  have hlast : Says " */" := by decide
  have htexts : Speaks (texts.map fun t => .line (" * " ++ t)) :=
    speaks_map fun t _ => says_append_left (by decide) t
  exact (((speaks_line hfirst).append htexts).append (speaks_line hlast)).stepsIf

theorem isMember_constructor (o : Options) (parent : Option String) (c : Class) :
    IsMember (constructor o parent c) := by
  have hcall : Says "parent::__construct();" := by decide
  have hassignments : Speaks (c.properties.map assignment) := speaks_map fun _ _ => says_semicolon _
  exact ⟨_, _, _, rfl, speaks_docBlock o _, (speaks_line hcall).stepsIf.append hassignments⟩

theorem isMember_getter (o : Options) (p : Property) : IsMember (getter o p) :=
  ⟨_, _, _, rfl, speaks_docBlock o _, speaks_line (says_semicolon _)⟩

theorem isMember_setter (o : Options) (p : Property) : IsMember (setter o p) := by
  have hreturn : Says "return $this;" := by decide
  exact ⟨_, _, _, rfl, speaks_docBlock o _, (speaks_line hreturn).cons (says_semicolon _)⟩

theorem isMember_members (o : Options) (parent : Option String) (c : Class) :
    ∀ b ∈ members o parent c, IsMember b := by
  intro b hb
  simp only [members, accessors, List.mem_append, List.mem_cons, List.mem_map] at hb
  rcases hb with (rfl | hb) | ⟨f, -, rfl⟩
  · exact isMember_constructor o parent c
  · split at hb
    · simp only [List.mem_flatMap, List.mem_cons] at hb
      obtain ⟨p, -, hb⟩ := hb
      rcases hb with rfl | rfl | hb
      · exact isMember_getter o p
      · exact isMember_setter o p
      · cases hb
    · cases hb
  · have htodo : Says "// TODO: Implement method" := by decide
    have hreturn : Says "return null; // Placeholder return" := by decide
    exact ⟨_, _, _, rfl, speaks_docBlock o _, (speaks_line hreturn).stepsIf.cons htodo⟩

/-- The line that declares a property. -/
def declaration (p : Property) : String := propertyKeyword p.visibility ++ " $" ++ p.name

/-- A property with its documentation. -/
def documented (p : Property) : List String :=
  ["/** @var " ++ valueTypeText p.type ++ " */", declaration p ++ ";"]

theorem paragraph_documented (p : Property) : Paragraph endsOpening isClosing (documented p) := by
  have hvar : Says ("/** @var " ++ valueTypeText p.type ++ " */") :=
    says_append_right _ (by decide)
  refine paragraph_of_says (by simp [documented]) ?_ fun l hl => ?_
  · rw [documented, List.forall_mem_cons, List.forall_mem_singleton]
    exact ⟨hvar, says_semicolon _⟩
  · cases hl
    exact endsOpening_semicolon _

/-- With documentation, properties are siblings with a gap before each. -/
theorem neat_properties (o : Options) (c : Class) :
    NeatIfAny endsOpening isClosing (c.properties.flatMap (property o)) := by
  apply NeatIfAny.flatMap
  intro hne
  cases hdocs : o.docs with
  | false =>
      have hproperty : property o = fun p => [.line (declaration p ++ ";")] := by
        funext p
        rw [property, hdocs]
        rfl
      rw [hproperty, ← List.map_eq_flatMap]
      exact neat_declarations hne
  | true =>
      have hproperty : property o = fun p => .gap :: (documented p).map .line := by
        funext p
        rw [property, hdocs]
        rfl
      have hspaced : c.properties.flatMap (property o) =
          spaced (c.properties.map fun p => (documented p).map .line) := by
        rw [spaced, List.flatMap_map, hproperty]
      rw [hspaced]
      apply Neat.spaced
      · rw [List.forall_mem_map]
        exact fun p _ => .lines (paragraph_documented p)
      · simpa using hne

theorem neat_classBlock (o : Options) (parent : Option String) (c : Class) :
    Neat endsOpening isClosing (classBlock o parent c) :=
  neat_class _ (speaks_docBlock o _) (neat_properties o c) (isMember_members o parent c) (by simp [members])

theorem setApart_classBlock (o : Options) (parent : Option String) (c : Class) (w : Nat) :
    SetApart ((members o parent c).map (linesOf w ⟨1, false⟩)) (linesOf w .start (classBlock o parent c)) :=
  setApart_members (header parent c) (level_docBlock o _) (level_flatMap fun p _ => level_property o p)
    (isMember_members o parent c) w

end Php

end UmlSkeleton

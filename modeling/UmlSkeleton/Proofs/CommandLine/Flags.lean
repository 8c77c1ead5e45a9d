import UmlSkeleton.CommandLine.Invocation
import UmlSkeleton.Json.Fault

/-!
# What options say

Options change the settings one after the other, and none of them may be given twice. So it can be read for
each option by itself what it says, wherever it stands among the others.

* `settle_generate` — the settings of `generate`, from the value that each option has been given.
* `flags_of_arguments` — the flags of an invocation, from its arguments.
* `indent_lt` — the width of an indentation is a word.
-/

namespace UmlSkeleton.CommandLine

/-! ## Items -/

/-- The value that an option is given before a command comes, if it is given one. A flag is given an empty
value. -/
def valueOf? [DecidableEq α] (option : α) : List (Item α) → Option String
  | .option form value :: more => if form.option = option then some value else valueOf? option more
  | _ => none

/-- The command that comes after the options, with what follows it. -/
def commandOf? : List (Item α) → Option (String × List String)
  | .option _ _ :: more => commandOf? more
  | .command name rest :: _ => some (name, rest)
  | _ => none

section
variable [DecidableEq α] {set : σ → OptionForm α → String → Except Stop σ} {seen : List α}
  {s s' : σ} {items : List (Item α)} {command : Option (String × List String)}

/-- An option is new, and changes the settings for those that follow. -/
theorem settle_option {form : OptionForm α} {value : String}
    (h : settle set seen s (.option form value :: items) = .ok (s', command)) :
    form.option ∉ seen ∧ ∃ next, set s form value = .ok next ∧
      settle set (form.option :: seen) next items = .ok (s', command) := by
  rw [settle] at h
  split at h
  · cases h
  · next hnew =>
      split at h
      · cases h
      · next next hnext => exact ⟨hnew, next, hnext, h⟩

/-- An option that has been given is not given again. -/
theorem valueOf?_of_mem {option : α} (hseen : option ∈ seen)
    (h : settle set seen s items = .ok (s', command)) : valueOf? option items = none := by
  induction items generalizing seen s with
  | nil => rfl
  | cons item items ih =>
      cases item with
      | bad error => rfl
      | command name rest => rfl
      | option form value =>
          obtain ⟨hnew, next, -, hmore⟩ := settle_option h
          have hne : form.option ≠ option := by
            rintro rfl
            exact hnew hseen
          rw [valueOf?, if_neg hne]
          exact ih (List.mem_cons_of_mem _ hseen) hmore

theorem commandOf?_of_settle (h : settle set seen s items = .ok (s', command)) :
    commandOf? items = command := by
  induction items generalizing seen s with
  | nil =>
      cases h
      rfl
  | cons item items ih =>
      cases item with
      | bad error => cases h
      | command name rest =>
          cases h
          rfl
      | option form value =>
          obtain ⟨-, next, -, hmore⟩ := settle_option h
          exact ih hmore

end

/-! ## Flags of `generate` -/

/-- The flags after options have been given values. Those without a value leave them as they are. -/
def GenerateFlags.give (s : GenerateFlags) (values : GenerateOption → Option String) :
    GenerateFlags where
  input := (values .input).bind readPath? <|> s.input
  output := (values .output).bind readPath? <|> s.output
  target := (values .target).bind readTarget? <|> s.target
  emit :=
    { indent := ((values .indent).bind readWord?).getD s.emit.indent
      noDocs := (values .noDocs).isSome || s.emit.noDocs
      phpAccessors := (values .phpAccessors).isSome || s.emit.phpAccessors
      noTrailer := (values .noTrailer).isSome || s.emit.noTrailer }

theorem map_orBad_eq_ok {form : OptionForm α} {value : String} {read : Option β} {f : β → σ} {s : σ}
    (h : (orBad form value read).map f = .ok s) : ∃ b, read = some b ∧ f b = s := by
  cases read with
  | none => cases h
  | some b =>
      cases h
      exact ⟨b, rfl, rfl⟩

/-- What one option says is what it says alone. -/
theorem give_of_setGenerate {s s' : GenerateFlags} {form : OptionForm GenerateOption} {value : String}
    (h : setGenerate s form value = .ok s') (values : GenerateOption → Option String)
    (hnone : values form.option = none) :
    s'.give values = s.give fun option => if form.option = option then some value else values option := by
  unfold setGenerate at h
  cases hoption : form.option with
  | help =>
      rw [hoption] at h
      cases h
  | input | output | target | indent =>
      rw [hoption] at h hnone
      obtain ⟨b, hread, rfl⟩ := map_orBad_eq_ok h
      simp [GenerateFlags.give, hnone, hread]
  | noDocs | phpAccessors | noTrailer =>
      rw [hoption] at h hnone
      cases h
      simp [GenerateFlags.give, hnone]

theorem settle_generate {seen : List GenerateOption} {s s' : GenerateFlags}
    {items : List (Item GenerateOption)} {command : Option (String × List String)}
    (h : settle setGenerate seen s items = .ok (s', command)) :
    s' = s.give fun option => valueOf? option items := by
  induction items generalizing seen s with
  | nil =>
      cases h
      rfl
  | cons item items ih =>
      cases item with
      | bad error => cases h
      | command name rest =>
          cases h
          rfl
      | option form value =>
          obtain ⟨-, next, hset, hmore⟩ := settle_option h
          have hnone := valueOf?_of_mem (List.mem_cons_self ..) hmore
          have hgive := give_of_setGenerate hset (fun option => valueOf? option items) hnone
          rw [ih hmore, hgive]
          rfl

theorem readCommand_generate {name : String} {rest : List String} {flags : GenerateFlags}
    (h : readCommand name rest = .ok (.generate flags)) : name = "generate" ∧
      flags = GenerateFlags.none.give fun option => valueOf? option (scan generateForms [] rest) := by
  unfold readCommand at h
  split at h
  · next hname =>
      obtain ⟨⟨flags, command⟩, hsettle, h⟩ := Json.exists_of_bind_eq_ok h
      cases h
      exact ⟨hname, settle_generate hsettle⟩
  split at h
  · obtain ⟨⟨input, command⟩, hsettle, h⟩ := Json.exists_of_bind_eq_ok h
    cases h
  split at h
  · obtain ⟨⟨json, command⟩, hsettle, h⟩ := Json.exists_of_bind_eq_ok h
    cases h
  · cases h

/-- The flags of `generate` are what the options after it say, each for itself. -/
theorem flags_of_arguments {args : List String} {inv : Invocation} {flags : GenerateFlags}
    (h : Invocation.ofArguments args = .ok inv) (hcommand : inv.command = .generate flags) :
    ∃ rest, commandOf? (scan globalForms commandNames args) = some ("generate", rest) ∧
      flags = GenerateFlags.none.give fun option => valueOf? option (scan generateForms [] rest) := by
  obtain ⟨⟨⟨verbose, logFormat⟩, command⟩, hsettle, h⟩ := Json.exists_of_bind_eq_ok h
  cases command with
  | none => cases h
  | some found =>
      obtain ⟨name, rest⟩ := found
      obtain ⟨command, hread, h⟩ := Json.exists_of_bind_eq_ok h
      cases h
      cases hcommand
      obtain ⟨rfl, hflags⟩ := readCommand_generate hread
      exact ⟨rest, commandOf?_of_settle hsettle, hflags⟩

/-! ## Widths -/

theorem lt_of_readWord? {s : String} {n : Nat} (h : readWord? s = some n) : n < UInt64.size := by
  unfold readWord? at h
  obtain ⟨-, h⟩ := Option.ite_none_left_eq_some.mp h
  obtain ⟨hlt, h⟩ := Option.ite_none_right_eq_some.mp h
  exact Option.some.inj h ▸ hlt

/-- The width that arguments ask for is a word, and so is the usual one. -/
theorem indent_lt {args : List String} {inv : Invocation} {flags : GenerateFlags}
    (h : Invocation.ofArguments args = .ok inv) (hcommand : inv.command = .generate flags) :
    flags.emit.indent < UInt64.size := by
  obtain ⟨rest, -, rfl⟩ := flags_of_arguments h hcommand
  show (Option.bind _ readWord?).getD 4 < UInt64.size
  cases hword : Option.bind _ readWord? with
  | none => decide
  | some n =>
      obtain ⟨s, -, hn⟩ := Option.bind_eq_some_iff.mp hword
      exact lt_of_readWord? hn

end UmlSkeleton.CommandLine

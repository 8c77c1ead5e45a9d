import UmlSkeleton.Proofs.CommandLine.Generate
import UmlSkeleton.Proofs.Skeleton.Parents
import UmlSkeleton.Proofs.Trailer

/-!
# Runs of `validate`

`validate` and `generate` are two commands with reports of their own, but what they make of an input turns
on the same thing: the model that the text describes, or the failure that there is instead
(`checkedModel`). So `validate` succeeds exactly if `generate` does, whatever the flags, and tells
beforehand what a skeleton leaves out: the relationships without an entry in the trailer, and the
generalizations whose parent is not the one in the header of the child.

* `validateReport_eq`, `generateReport_of_failure` — the reports, from `checkedModel`.
* `run_validate` — runs of both commands with the same input.
-/

namespace UmlSkeleton.CommandLine

/-! ## What a text provides -/

/-- The model that a text describes, if it has no defect. -/
def checkedModel (content : String) : Except Failure Model := do
  let m ← Model.ofText content
  m.check
  return m

variable {content : String} {m : Model} {f : Failure}

theorem generateFrom_eq (o : Options) (target : Target) :
    generateFrom content o target = (checkedModel content).map (·.skeleton o target) := by
  unfold generateFrom checkedModel
  cases Model.ofText content with
  | error f => rfl
  | ok m =>
      show m.generate o target = (do m.check; return m : Except Failure Model).map (·.skeleton o target)
      cases hcheck : m.check with
      | error f => exact generate_of_check_error hcheck o target
      | ok u => exact generate_of_check_ok hcheck o target

theorem checkedModel_eq_ok_iff :
    checkedModel content = .ok m ↔ Model.decode content = .ok m ∧ m.check = .ok () := by
  unfold checkedModel Model.ofText
  constructor
  · intro h
    obtain ⟨n, hdecode, h⟩ := Json.exists_of_bind_eq_ok h
    obtain ⟨u, hcheck, h⟩ := Json.exists_of_bind_eq_ok h
    cases h
    cases hm : Model.decode content with
    | error e =>
        rw [hm] at hdecode
        cases hdecode
    | ok n =>
        rw [hm] at hdecode
        cases hdecode
        exact ⟨rfl, hcheck⟩
  · rintro ⟨hdecode, hcheck⟩
    rw [hdecode]
    show (do m.check; return m) = Except.ok m
    rw [hcheck]
    rfl

/-- A place provides a model if there is a text that describes one without defects. -/
theorem provides_iff {w : Workspace} {streams : Streams} {place : Place} :
    w.Provides streams place m ↔
      ∃ content, w.fetch streams (some place) = .ok content ∧ checkedModel content = .ok m := by
  constructor
  · rintro ⟨bytes, content, hbytes, htext, hm⟩
    exact ⟨content, fetch_eq_ok_iff.mpr ⟨bytes, hbytes, htext⟩, checkedModel_eq_ok_iff.mpr hm⟩
  · rintro ⟨content, hfetch, hm⟩
    obtain ⟨bytes, hbytes, htext⟩ := fetch_eq_ok_iff.mp hfetch
    exact ⟨bytes, content, hbytes, htext, checkedModel_eq_ok_iff.mp hm⟩

/-! ## Reports -/

/-- What `generate` says before the message of a failure. -/
def leadOf : Failure → String
  | .badDocument _ => "Failed to read class model: "
  | _ => ""

/-- What `validate` prints about an input that provides no model. -/
def invalidText (f : Failure) : String := "✗ Invalid model: " ++ f.message ++ "\n"

/-- What `validate` prints about an input that provides a model. -/
def validText (m : Model) : String :=
  String.join (m.inspect.dangling.map danglingWarning) ++
    String.join (m.inspect.conflicts.map conflictWarning) ++ validSummary m

theorem validateReport_eq (verbose : Bool) (content : String) :
    (validateReport verbose content).conclusion =
      match checkedModel content with
      | .error f => .prints (invalidText f) (some f.message)
      | .ok m => .prints (validText m) none := rfl

theorem generateReport_of_failure (h : checkedModel content = .error f) (machine : Machine) (verbose : Bool)
    (flags : GenerateFlags) :
    (generateReport machine verbose flags content).conclusion = .prints "" (some (leadOf f ++ f.message)) := by
  unfold checkedModel at h
  unfold generateReport
  cases hm : Model.ofText content with
  | error e =>
      rw [hm] at h
      cases h
      unfold Model.ofText at hm
      cases hdecode : Model.decode content with
      | ok m =>
          rw [hdecode] at hm
          cases hm
      | error e =>
          rw [hdecode] at hm
          cases hm
          rfl
  | ok m =>
      rw [hm] at h
      replace h : (do m.check; return m) = Except.error f := h
      cases hcheck : m.check with
      | ok u =>
          rw [hcheck] at h
          cases h
      | error e =>
          rw [hcheck] at h
          cases h
          -- A model that has been read fails for a defect, which needs no words before it.
          have hlead : leadOf f = "" := by
            unfold Model.check at hcheck
            split at hcheck
            · cases hcheck
            · cases hcheck
              rfl
          simp only [hcheck, hlead, String.empty_append]
          rfl

/-! ## Warnings -/

/-- A relationship is reported as dangling if it has no entry in the trailer, whatever the target. -/
theorem dangling_eq_filter (m : Model) (target : Target) :
    m.dangling = m.relationships.filter fun r => (m.entryFor? target r).isNone := by
  unfold Model.dangling
  congr 1
  funext r
  rw [← Option.not_isSome, ← Option.not_isSome, Model.isSome_entryFor?]

/-- What is printed about a model without defects, relationship by relationship. -/
theorem validText_eq (hsound : m.Sound) (target : Target) : validText m =
    String.join ((m.relationships.filter fun r => (m.entryFor? target r).isNone).map danglingWarning) ++
      String.join ((m.relationships.filterMap m.rejection?).map conflictWarning) ++ validSummary m := by
  rw [← dangling_eq_filter, ← hsound.conflicts_eq]
  rfl

/-- What a conflict says was kept is the parent in the header of the child, in every target. -/
theorem header_of_mem_conflicts (hsound : m.Sound) {k : Conflict}
    (hk : k ∈ m.relationships.filterMap m.rejection?) (o : Options) (target : Target) :
    ∃ c ∈ m.classes, c.name = k.child ∧
      headerOf (m.block o target c) = some (target.classHeader k.child (some k.kept)) := by
  obtain ⟨r, -, hr⟩ := List.mem_filterMap.mp hk
  unfold Model.rejection? at hr
  split at hr
  · obtain ⟨child, hchild, hr⟩ := Option.bind_eq_some_iff.mp hr
    obtain ⟨parent, -, hr⟩ := Option.bind_eq_some_iff.mp hr
    obtain ⟨kept, hkept, hr⟩ := Option.bind_eq_some_iff.mp hr
    split at hr
    · cases hr
    · cases hr
      have hmem : child ∈ m.classes := List.mem_of_find?_eq_some hchild
      refine ⟨child, hmem, rfl, ?_⟩
      rw [Model.block, headerOf_block, hsound.parent?_eq hmem, hkept]
      rfl
  · cases hr

/-! ## Runs -/

theorem printTo_of_not_refuse {streams : Streams} (h : ¬ streams.Refuse) (text : String) :
    printTo streams.outputRefusal text = .ok () ∧ printTo streams.errorRefusal text = .ok () := by
  obtain ⟨houtput, herror⟩ := not_or.mp h
  exact ⟨printTo_eq_ok_iff.mpr (.inl (not_not.mp houtput)), printTo_eq_ok_iff.mpr (.inl (not_not.mp herror))⟩

theorem exit_one_ne_exit_zero : Ending.exit 1 ≠ .exit 0 := by decide

section
variable {args : List String} {inv : Invocation} {env : Environment} {w : Workspace} {text : String}
  (h : Invocation.ofArguments args = .ok inv) (hstreams : ¬ env.streams.Refuse)
include h hstreams

/-- Where no stream refuses it, what a command prints is printed. -/
theorem run_of_prints
    (hreport : (inv.report env (w.fetch env.streams inv.command.source?)).conclusion = .prints text none) :
    ∃ stderr, run args env w = (⟨.exit 0, text, stderr⟩, w) := by
  rw [run_of_arguments h, finish_report _ _ _ _ (printTo_of_not_refuse hstreams _).2, hreport,
    finish_prints (printTo_of_not_refuse hstreams text).1]
  exact ⟨_, rfl⟩

/-- Where no stream refuses it, what a command complains about is printed as well. -/
theorem run_of_complaint {message : String}
    (hreport : (inv.report env (w.fetch env.streams inv.command.source?)).conclusion =
      .prints text (some message)) :
    ∃ notes, run args env w = (⟨.exit 1, text, notes ++ errorLine message⟩, w) := by
  have hline := (printTo_of_not_refuse hstreams (errorLine message)).2
  rw [run_of_arguments h, finish_report _ _ _ _ (printTo_of_not_refuse hstreams _).2, hreport,
    finish_prints_failed (printTo_of_not_refuse hstreams text).1, Outcome.failed, hline]
  exact ⟨_, rfl⟩

/-- A command whose input cannot be read prints nothing. -/
theorem run_of_fetch_error {e : FileError} (hfetch : w.fetch env.streams inv.command.source? = .error e) :
    ∃ stderr, run args env w = (⟨.exit 1, "", stderr⟩, w) := by
  have hreport : (inv.report env (w.fetch env.streams inv.command.source?)).conclusion =
      .prints "" (some (Place.readError e inv.command.source?)) := by
    rw [hfetch]
    rfl
  obtain ⟨notes, hrun⟩ := run_of_complaint h hstreams hreport
  exact ⟨_, hrun⟩

end

theorem report_of_validate {inv : Invocation} {source : Place} (hcommand : inv.command = .validate source)
    (env : Environment) (content : String) :
    (inv.report env (.ok content)).conclusion =
      match checkedModel content with
      | .error f => .prints (invalidText f) (some f.message)
      | .ok m => .prints (validText m) none := by
  rw [← validateReport_eq inv.verbose]
  unfold Invocation.report
  rw [hcommand]
  rfl

theorem report_of_generate_failure {inv : Invocation} {flags : GenerateFlags}
    (hcommand : inv.command = .generate flags) (env : Environment) (hm : checkedModel content = .error f) :
    (inv.report env (.ok content)).conclusion = .prints "" (some (leadOf f ++ f.message)) := by
  rw [← generateReport_of_failure hm env.machine inv.verbose flags]
  unfold Invocation.report
  rw [hcommand]
  rfl

section
variable {args others : List String} {inv inv' : Invocation} {source : Place} {flags : GenerateFlags}
  (h : Invocation.ofArguments args = .ok inv) (hcommand : inv.command = .validate source)

include h hcommand in
/-- A run of `validate` writes no file, whatever becomes of what it prints. -/
theorem run_validate_same (env : Environment) (w : Workspace) : (run args env w).2 = w := by
  have hprints : ∃ text error,
      (inv.report env (w.fetch env.streams inv.command.source?)).conclusion = .prints text error := by
    cases w.fetch env.streams inv.command.source? with
    | error e => exact ⟨_, _, rfl⟩
    | ok content =>
        rw [report_of_validate hcommand]
        cases checkedModel content with
        | error f => exact ⟨_, _, rfl⟩
        | ok m => exact ⟨_, _, rfl⟩
  obtain ⟨text, error, hreport⟩ := hprints
  rw [run_of_arguments h]
  unfold Report.finish
  split
  · rfl
  · rw [hreport]
    unfold Conclusion.finish
    dsimp only
    split <;> rfl

variable (h' : Invocation.ofArguments others = .ok inv') (hcommand' : inv'.command = .generate flags)
  (hprints : Place.ofPath flags.output = .standard)

include h hcommand h' hcommand' hprints in
/-- **Runs of `validate`.** It never writes a file. As long as no standard stream refuses what is printed and
there is room for the skeleton, it succeeds exactly if `generate` succeeds in printing a skeleton of the same
input, whatever flags that is given. Then it prints a warning for each relationship without an entry in the
trailer, a warning for each generalization that is rejected in favour of the parent that the header of the
child names, both in the order of the relationships, and the counts. Where the input provides no model, it
prints the message of the failure that `generate` complains about; where there is no text, it prints
nothing. -/
theorem run_validate {env env' : Environment} {w w' : Workspace}
    (hinput : w.bytes env.streams source = w'.bytes env'.streams (.ofPath flags.input)) :
    let checked := run args env w
    let generated := run others env' w'
    let options := flags.emit.options
    let target := resolveTarget flags.target flags.output
    checked.2 = w ∧
      (¬ env.streams.Refuse → ¬ env'.streams.Refuse →
        (∀ m, w.Provides env.streams source m → ∃ text, m.emit env'.machine options target = .ok text) →
        (checked.1.ending = .exit 0 ↔ generated.1.ending = .exit 0) ∧
          (checked.1.ending = .exit 0 → ∃ m, w.Provides env.streams source m ∧
            generated.1.stdout = m.skeleton options target ∧
            checked.1.stdout =
              String.join ((m.relationships.filter fun r => (m.entryFor? target r).isNone).map fun r =>
                "warning: " ++ r.kind.text ++ " relationship " ++ toString r.source ++ " -> " ++
                  toString r.target ++ " references a missing class\n") ++
              String.join ((m.relationships.filterMap m.rejection?).map fun k =>
                "warning: " ++ k.child ++ " already extends " ++ k.kept ++ "; ignoring " ++ k.rejected ++
                  "\n") ++
              ("✓ Valid model: " ++ toString m.classes.length ++ " classes, " ++
                toString m.relationships.length ++ " relationships\n") ∧
            ∀ k ∈ m.relationships.filterMap m.rejection?, ∃ c ∈ m.classes, c.name = k.child ∧
              headerOf (m.block options target c) = some (target.classHeader k.child (some k.kept))) ∧
          (checked.1.ending ≠ .exit 0 → checked.1.ending = .exit 1 ∧ generated.1.ending = .exit 1 ∧
            ((∃ content f, w.fetch env.streams (some source) = .ok content ∧
                generateFrom content options target = .error f ∧
                checked.1.stdout = "✗ Invalid model: " ++ f.message ++ "\n" ∧
                ∃ notes, generated.1.stderr = notes ++ ("Error: " ++ (leadOf f ++ f.message) ++ "\n")) ∨
              (∃ e, w.fetch env.streams (some source) = .error e) ∧ checked.1.stdout = ""))) := by
  intro checked generated options target
  refine ⟨run_validate_same h hcommand env w, fun hstreams hstreams' hroom => ?_⟩
  have hfetch : w.fetch env.streams (some source) = w'.fetch env'.streams (some (.ofPath flags.input)) :=
    congrArg (·.bind decodeText) hinput
  have hsource : inv.command.source? = some source := by rw [hcommand]; rfl
  have hsource' : inv'.command.source? = some (.ofPath flags.input) := by rw [hcommand']; rfl
  cases hcontent : w.fetch env.streams (some source) with
  | error e =>
      obtain ⟨stderr, hchecked⟩ := run_of_fetch_error h hstreams (by rw [hsource]; exact hcontent)
      obtain ⟨stderr', hgenerated⟩ :=
        run_of_fetch_error h' hstreams' (by rw [hsource', ← hfetch]; exact hcontent)
      change checked = _ at hchecked
      change generated = _ at hgenerated
      rw [hchecked, hgenerated]
      exact ⟨Iff.rfl, fun hexit => absurd hexit exit_one_ne_exit_zero,
        fun _ => ⟨rfl, rfl, .inr ⟨⟨e, rfl⟩, rfl⟩⟩⟩
  | ok content =>
      have hreport := report_of_validate hcommand env content
      cases hm : checkedModel content with
      | error f =>
          have hfrom : generateFrom content options target = .error f := by
            rw [generateFrom_eq, hm]
            rfl
          rw [hm] at hreport
          obtain ⟨notes, hchecked⟩ := run_of_complaint h hstreams (w := w)
            (by rw [hsource, hcontent]; exact hreport)
          obtain ⟨notes', hgenerated⟩ := run_of_complaint h' hstreams' (w := w')
            (by rw [hsource', ← hfetch, hcontent]; exact report_of_generate_failure hcommand' env' hm)
          change checked = _ at hchecked
          change generated = _ at hgenerated
          rw [hchecked, hgenerated]
          exact ⟨Iff.rfl, fun hexit => absurd hexit exit_one_ne_exit_zero,
            fun _ => ⟨rfl, rfl, .inl ⟨content, f, rfl, hfrom, rfl, notes', rfl⟩⟩⟩
      | ok m =>
          obtain ⟨hdecode, hcheck⟩ := checkedModel_eq_ok_iff.mp hm
          have hsound : m.Sound := Model.check_eq_ok_iff.mp hcheck
          have hprovides : w.Provides env.streams source m := provides_iff.mpr ⟨content, hcontent, hm⟩
          obtain ⟨text, hemit⟩ := hroom m hprovides
          have htext : text = m.skeleton options target := (Model.emit_eq_ok (indent_lt h' hcommand') hemit).1
          have hreport' := report_of_emit hcommand' hdecode hcheck hemit
          rw [hm] at hreport
          rw [hprints] at hreport'
          obtain ⟨stderr, hchecked⟩ := run_of_prints h hstreams (w := w)
            (by rw [hsource, hcontent]; exact hreport)
          obtain ⟨stderr', hgenerated⟩ := run_of_prints h' hstreams' (w := w')
            (by rw [hsource', ← hfetch, hcontent]; exact hreport')
          change checked = _ at hchecked
          change generated = _ at hgenerated
          rw [hchecked, hgenerated]
          exact ⟨Iff.rfl, fun _ => ⟨m, hprovides, htext, validText_eq hsound target, fun k hk =>
            header_of_mem_conflicts hsound hk options target⟩, fun hexit => absurd rfl hexit⟩

end

/-- A dog is an animal, and a pet only in vain; its third generalization leads nowhere. The model is
checked in a file and generated from the standard input. -/
theorem run_validate_of_dog :
    let up (target : Key) : Relationship := ⟨2, target, .known .generalization, none, none⟩
    let m : Model := ⟨[⟨1, "Animal", [], []⟩, ⟨2, "Dog", [], []⟩, ⟨3, "Pet", [], []⟩],
      [up 1, up 9, up 3]⟩
    let text := m.pretty
    let machine : Machine := ⟨true, fun _ => true⟩
    let env : Environment := ⟨⟨.ok ByteArray.empty, none, none⟩, none, machine⟩
    let env' : Environment := ⟨⟨.ok text.toUTF8, none, none⟩, none, machine⟩
    let w : Workspace := ⟨[(["zoo", "dog.json"], .file text)], ["home"], fun _ => none, fun _ => none⟩
    let source := Place.file "../zoo/dog.json"
    w.bytes env.streams source = w.bytes env'.streams .standard ∧
      ∃ checked generated, run ["validate", "--input=../zoo/dog.json"] env w = checked ∧
        run ["generate", "-tphp", "--indent", "2", "--no-trailer"] env' w = generated ∧
        checked.1.ending = .exit 0 ∧ generated.1.ending = .exit 0 ∧ checked.2 = w ∧
        checked.1.stdout =
          "warning: generalization relationship 2 -> 9 references a missing class\n" ++
          "warning: Dog already extends Animal; ignoring Pet\n" ++
          "✓ Valid model: 3 classes, 3 relationships\n" := by
  intro up m text
  have hdecode : Model.decode text = .ok m := m.decode_pretty
  clear_value text
  intro machine env env' w source
  have hinput : w.bytes env.streams source = w.bytes env'.streams .standard := rfl
  let flags : GenerateFlags := ⟨none, none, some .php, ⟨2, false, false, true⟩⟩
  have hvalidate : Invocation.ofArguments ["validate", "--input=../zoo/dog.json"] =
      .ok ⟨false, .compact, .validate source⟩ := rfl
  have hgenerate : Invocation.ofArguments ["generate", "-tphp", "--indent", "2", "--no-trailer"] =
      .ok ⟨false, .compact, .generate flags⟩ := rfl
  have hprovides : w.Provides env.streams source m :=
    ⟨text.toUTF8, text, rfl, fromUTF8?_toUTF8 _, hdecode, rfl⟩
  have hroom : ∀ n, w.Provides env.streams source n →
      ∃ skeleton, n.emit env'.machine flags.emit.options .php = .ok skeleton :=
    hprovides.forall_of ⟨_, Model.emit_of_grants (by decide) (fun _ => rfl) (by decide +kernel)⟩
  have hstreams : ¬ env.streams.Refuse := not_or.mpr ⟨not_not.mpr rfl, not_not.mpr rfl⟩
  have hstreams' : ¬ env'.streams.Refuse := not_or.mpr ⟨not_not.mpr rfl, not_not.mpr rfl⟩
  obtain ⟨hsame, hmore⟩ := run_validate hvalidate rfl hgenerate rfl rfl hinput
  obtain ⟨hiff, hzero, hnonzero⟩ := hmore hstreams hstreams' hroom
  obtain ⟨content, hfetch, hm⟩ := provides_iff.mp hprovides
  have hexit : (run ["validate", "--input=../zoo/dog.json"] env w).1.ending = .exit 0 := by
    by_contra hne
    rcases (hnonzero hne).2.2 with ⟨other, f, hother, hfrom, -⟩ | ⟨⟨e, he⟩, -⟩
    · cases hfetch.symm.trans hother
      rw [generateFrom_eq, hm] at hfrom
      cases hfrom
    · cases hfetch.symm.trans he
  obtain ⟨n, hn, -, hstdout, -⟩ := hzero hexit
  cases hprovides.unique hn
  exact ⟨hinput, _, _, rfl, rfl, hexit, hiff.mp hexit, hsame, hstdout.trans (by decide +kernel)⟩

end UmlSkeleton.CommandLine

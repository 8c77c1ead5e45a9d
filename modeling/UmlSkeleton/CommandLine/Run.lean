import UmlSkeleton.CommandLine.Invocation
import UmlSkeleton.Skeleton.Emission

/-!
# Running a command

A command first gets its input, then makes a `Report`: what it has to say on the way, and what it
comes to. Only when that has been printed or written to a file, or not, is the `Outcome` known. `run`
does all this in a workspace; a program that has real files does the steps in between itself.

A run that cannot go on breaks off: if the text of a skeleton has no room on the machine, or if a
stream refuses what is printed.
-/

namespace UmlSkeleton.CommandLine

open Json

/-- What a run finds around it, files aside. -/
structure Environment where
  streams : Streams
  /-- The log format that the environment asks for. It goes before the one in the arguments. -/
  logFormat : Option String
  machine : Machine

/-! ### Outcomes -/

/-- How a run ends. -/
inductive Ending where
  | exit (code : Nat)
  /-- The run is stopped from outside. -/
  | aborted
  deriving DecidableEq, Repr

/-- What a run leaves behind for those who started it. What is logged, and the last words of a run
that breaks off, are not its own and left out. -/
structure Outcome where
  ending : Ending
  stdout : String
  stderr : String
  deriving DecidableEq, Repr

/-- A run that breaks off has an exit code of its own. -/
def Ending.brokenOff : Ending := .exit 101

/-- How a run ends that comes to a halt. Only for want of memory it is not left to end by itself. -/
def Ending.ofHalt : Halt → Ending
  | .overflow => .brokenOff
  | .capacity => .brokenOff
  | .memory => .aborted

/-! ### Names and fixed texts -/

def programVersion : String := "0.1.0"

def versionText : String := "classforge " ++ programVersion ++ "\n"

def usageText : String :=
  "Usage: classforge [-v] [--log-level LEVEL] [--log-format FORMAT] COMMAND\n\n" ++
  "Commands:\n" ++
  "  generate [-i FILE] [-o FILE] [-t TARGET] [--indent N] [--no-docs]\n" ++
  "           [--php-accessors] [--no-trailer]\n" ++
  "             write the skeleton of a class model\n" ++
  "  validate [-i FILE]\n" ++
  "             check a class model for errors and warnings\n" ++
  "  targets [--json]\n" ++
  "             list the target languages\n"

/-- Some lines, if the run is verbose. -/
def noteIf (verbose : Bool) (lines : List String) : String :=
  if verbose then String.join (lines.map (· ++ "\n")) else ""

def errorLine (message : String) : String := "Error: " ++ message ++ "\n"

/-! ### Reports -/

/-- A text for a file. -/
structure Save where
  path : String
  text : String
  deriving DecidableEq, Repr

/-- What a command comes to. -/
inductive Conclusion where
  /-- It prints a text. It has failed if there is an error. -/
  | prints (text : String) (error : Option String)
  /-- It has a text for a file. -/
  | saves (save : Save)
  /-- It does not come to its end. -/
  | halts (halt : Halt)
  deriving DecidableEq, Repr

/-- What a command has to say on the way, and what it comes to. -/
structure Report where
  notes : String
  conclusion : Conclusion
  deriving DecidableEq, Repr

/-- A command that fails before it prints anything. -/
def Report.failed (notes error : String) : Report := ⟨notes, .prints "" (some error)⟩

/-- Where a text is to go. -/
def Place.conclusion (text : String) : Place → Conclusion
  | .standard => .prints text none
  | .file path => .saves ⟨path, text⟩

def sizeNote (content : String) : String :=
  "Read " ++ toString content.utf8ByteSize ++ " bytes of input"

/-- Write the skeleton of the model in the input. -/
def generateReport (machine : Machine) (verbose : Bool) (flags : GenerateFlags) (content : String) :
    Report :=
  let target := resolveTarget flags.target flags.output
  let notes := noteIf verbose [sizeNote content]
  match Model.ofText content with
  | .error f => .failed notes ("Failed to read class model: " ++ f.message)
  | .ok m =>
    match m.check with
    | .error f => .failed notes f.message
    | .ok () =>
      match m.emit machine flags.emit.options target with
      | .error halt => ⟨notes, .halts halt⟩
      | .ok text =>
        ⟨noteIf verbose [sizeNote content,
          "Generated " ++ target.name ++ " code for " ++ toString m.classes.length ++ " classes"],
          (Place.ofPath flags.output).conclusion text⟩

def danglingWarning (r : Relationship) : String :=
  "warning: " ++ r.kind.text ++ " relationship " ++ toString r.source ++ " -> " ++
    toString r.target ++ " references a missing class\n"

def conflictWarning (c : Conflict) : String :=
  "warning: " ++ c.child ++ " already extends " ++ c.kept ++ "; ignoring " ++ c.rejected ++ "\n"

def validSummary (m : Model) : String :=
  "✓ Valid model: " ++ toString m.classes.length ++ " classes, " ++
    toString m.relationships.length ++ " relationships\n"

/-- Check the model in the input, and tell what a skeleton will leave out. -/
def validateReport (verbose : Bool) (content : String) : Report :=
  let checked : Except Failure Model := do
    let m ← Model.ofText content
    m.check
    return m
  ⟨noteIf verbose [sizeNote content],
    match checked with
    | .error f => .prints ("✗ Invalid model: " ++ f.message ++ "\n") (some f.message)
    | .ok m =>
      .prints (String.join (m.inspect.dangling.map danglingWarning) ++
        String.join (m.inspect.conflicts.map conflictWarning) ++ validSummary m) none⟩

/-- A text with spaces after it, at least so wide. -/
def padRight (width : Nat) (s : String) : String :=
  s ++ String.ofList (List.replicate (width - s.length) ' ')

def targetLine (t : Target) : String :=
  "  " ++ padRight 8 t.name ++ " (." ++ padRight 4 t.extension ++ ") - " ++ t.description ++ "\n"

/-- The targets as a document. -/
def targetsTree : Tree :=
  .object
    [("supported_targets", .list (Target.all.map fun t => .object
        [("description", .text t.description), ("extension", .text t.extension),
         ("name", .text t.name)])),
     ("total", .integer Target.all.length)]

/-- List the targets. -/
def targetsReport (verbose json : Bool) : Report :=
  let text :=
    if json then targetsTree.pretty ++ "\n"
    else
      "Supported target languages:\n" ++ String.join (Target.all.map targetLine) ++ "\nTotal: " ++
        toString Target.all.length ++ " target languages supported\n"
  ⟨noteIf verbose ["Listing supported target languages"], .prints text none⟩

/-- The report of a command once its input is there. -/
def Command.report (machine : Machine) (verbose : Bool) (content : String) : Command → Report
  | .generate flags => generateReport machine verbose flags content
  | .validate _ => validateReport verbose content
  | .targets json => targetsReport verbose json

/-- What is said about an input that cannot be read. -/
def Place.readError (error : FileError) : Option Place → String
  | some (.file path) => "Failed to read input file '" ++ path ++ "': " ++ error.message
  | _ => error.message

/-- What is said before the command begins: a complaint about the log format that the environment
asks for, and the version if the run is verbose. -/
def Invocation.opening (inv : Invocation) (env : Environment) : String :=
  let warning := match env.logFormat with
    | none => ""
    | some s =>
      if (LogFormat.ofText? s).isSome then ""
      else
        "Warning: Failed to initialize logging: Invalid log format: " ++
          LogFormat.unknownMessage s ++ "\n"
  warning ++ noteIf inv.verbose ["Classforge v" ++ programVersion]

/-- The report of an invocation, `input` being what there is at the command's source. -/
def Invocation.report (inv : Invocation) (env : Environment)
    (input : Except FileError String) : Report :=
  let body := match input with
    | .error e => Report.failed "" (Place.readError e inv.command.source?)
    | .ok content => inv.command.report env.machine inv.verbose content
  { body with notes := inv.opening env ++ body.notes }

/-- What is said about a file that cannot be written. -/
def Save.error (save : Save) (e : FileError) : String :=
  "Failed to write output file '" ++ save.path ++ "': " ++ e.message

/-! ### From reports to outcomes -/

/-- The outcome of a run that ends with an error. -/
def Outcome.failed (streams : Streams) (stdout notes message : String) : Outcome :=
  match printTo streams.errorRefusal (errorLine message) with
  | .error _ => ⟨.brokenOff, stdout, notes⟩
  | .ok () => ⟨.exit 1, stdout, notes ++ errorLine message⟩

/-- The outcome of arguments that lead to no command. It does not matter if nobody hears of it. -/
def Stop.outcome (streams : Streams) (stop : Stop) : Outcome :=
  let heard (refusal : Option FileError) (text : String) : String :=
    match printTo refusal text with
    | .error _ => ""
    | .ok () => text
  match stop with
  | .version => ⟨.exit 0, heard streams.outputRefusal versionText, ""⟩
  | .help => ⟨.exit 0, heard streams.outputRefusal usageText, ""⟩
  | .usage error =>
    ⟨.exit 2, "", heard streams.errorRefusal ("error: " ++ error.message ++ "\n\n" ++ usageText)⟩

/-- Bring a conclusion about in a workspace. -/
def Conclusion.finish (conclusion : Conclusion) (notes : String) (streams : Streams)
    (w : Workspace) : Outcome × Workspace :=
  match conclusion with
  | .halts halt => (⟨.ofHalt halt, "", notes⟩, w)
  | .prints text error =>
    match printTo streams.outputRefusal text, error with
    | .error _, _ => (⟨.brokenOff, "", notes⟩, w)
    | .ok (), none => (⟨.exit 0, text, notes⟩, w)
    | .ok (), some message => (.failed streams text notes message, w)
  | .saves save =>
    match w.write streams save.path save.text with
    | .error e => (.failed streams "" notes (save.error e), w)
    | .ok (w', effects) => (⟨.exit 0, effects.stdout, notes ++ effects.stderr⟩, w')

/-- Bring a report about in a workspace. What is said on the way comes first. -/
def Report.finish (r : Report) (streams : Streams) (w : Workspace) : Outcome × Workspace :=
  match printTo streams.errorRefusal r.notes with
  | .error _ => (⟨.brokenOff, "", ""⟩, w)
  | .ok () => r.conclusion.finish r.notes streams w

/-! ### In a workspace -/

/-- The bytes that there are at a place. -/
def Workspace.bytes (w : Workspace) (streams : Streams) : Place → Except FileError ByteArray
  | .standard => streams.input
  | .file path => w.read streams path

/-- What a command finds at its source. A command without one gets nothing. -/
def Workspace.fetch (w : Workspace) (streams : Streams) : Option Place → Except FileError String
  | none => .ok ""
  | some place => (w.bytes streams place).bind decodeText

/-- Run a command line in a workspace. -/
def run (args : List String) (env : Environment) (w : Workspace) : Outcome × Workspace :=
  match Invocation.ofArguments args with
  | .error stop => (stop.outcome env.streams, w)
  | .ok inv =>
    (inv.report env (w.fetch env.streams inv.command.source?)).finish env.streams w

end UmlSkeleton.CommandLine

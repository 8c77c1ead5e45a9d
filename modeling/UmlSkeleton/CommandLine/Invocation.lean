import UmlSkeleton.CommandLine.Arguments
import UmlSkeleton.CommandLine.LogFormat
import UmlSkeleton.CommandLine.Workspace
import UmlSkeleton.Options
import UmlSkeleton.Target.Basic

/-!
# Invocations

What the arguments ask for: settings for the whole run, before the command, and a command with its
own options. The arguments may also ask for the version or for help, or make no sense.
-/

namespace UmlSkeleton.CommandLine

/-! ### What can be asked for -/

/-- Where a text comes from or goes to. -/
inductive Place where
  | standard
  | file (path : String)
  deriving DecidableEq, Repr

/-- A lone dash means standard input or output, and so does saying nothing. -/
def Place.ofPath : Option String → Place
  | none => .standard
  | some path => if path = "-" then .standard else .file path

/-- The flags of `generate` that shape the text. -/
structure EmitFlags where
  indent : Nat
  noDocs : Bool
  phpAccessors : Bool
  noTrailer : Bool
  deriving DecidableEq, Repr

/-- The options that the flags ask for. -/
def EmitFlags.options (f : EmitFlags) : Options :=
  ⟨f.indent, !f.noDocs, f.phpAccessors, !f.noTrailer⟩

/-- What may be said about `generate`. -/
structure GenerateFlags where
  input : Option String
  output : Option String
  target : Option Target
  emit : EmitFlags
  deriving DecidableEq, Repr

/-- Nothing is said. -/
def GenerateFlags.none : GenerateFlags := ⟨.none, .none, .none, ⟨4, false, false, false⟩⟩

/-- The target that is asked for, else the one that the extension of the output means, else the
usual one. -/
def resolveTarget (target : Option Target) (output : Option String) : Target :=
  (target <|> (output.bind fileExtension?).bind Target.ofExtension?).getD .default

inductive Command where
  /-- Write the skeleton of a model. -/
  | generate (flags : GenerateFlags)
  /-- Look for defects in a model. -/
  | validate (source : Place)
  /-- List the targets. -/
  | targets (json : Bool)
  deriving DecidableEq, Repr

structure Invocation where
  verbose : Bool
  logFormat : LogFormat
  command : Command
  deriving DecidableEq, Repr

/-- Where the command takes its input from, if it needs any. -/
def Command.source? : Command → Option Place
  | .generate flags => some (.ofPath flags.input)
  | .validate source => some source
  | .targets _ => none

/-! ### Values of options -/

/-- A natural number of 64 bits in decimal digits, which may have a plus in front. -/
def readWord? (s : String) : Option Nat :=
  let digits := match s.toList with
    | '+' :: cs => cs
    | cs => cs
  if digits.isEmpty || !digits.all Char.isDigit then none
  else
    let value := digits.foldl (fun n c => n * 10 + (c.toNat - '0'.toNat)) 0
    if value < UInt64.size then some value else none

/-- A target by its name or extension, spelled exactly so. -/
def readTarget? (s : String) : Option Target :=
  Target.all.find? fun t => s = t.name || s = t.extension

/-- The names of the levels of logging. -/
def logLevels : List String := ["trace", "debug", "info", "warn", "error"]

/-- A log format, spelled exactly so. -/
def readLogFormat? (s : String) : Option LogFormat := LogFormat.all.find? (·.word = s)

/-- The value of an option, or the complaint that it is none. -/
def orBad (form : OptionForm α) (value : String) : Option β → Except Stop β
  | some b => .ok b
  | none => .error (.usage (.badValue form.long value))

/-- A path, which has at least one character. -/
def readPath? (s : String) : Option String := if s = "" then none else some s

/-! ### The options of the commands -/

inductive GenerateOption where
  | input
  | output
  | target
  | indent
  | noDocs
  | phpAccessors
  | noTrailer
  | help
  deriving DecidableEq, Repr

def generateForms : List (OptionForm GenerateOption) :=
  [⟨.input, "input", some 'i', true⟩, ⟨.output, "output", some 'o', true⟩,
   ⟨.target, "target", some 't', true⟩, ⟨.indent, "indent", none, true⟩,
   ⟨.noDocs, "no-docs", none, false⟩, ⟨.phpAccessors, "php-accessors", none, false⟩,
   ⟨.noTrailer, "no-trailer", none, false⟩, ⟨.help, "help", some 'h', false⟩]

def setGenerate (s : GenerateFlags) (form : OptionForm GenerateOption) (value : String) :
    Except Stop GenerateFlags :=
  match form.option with
  | .input => (orBad form value (readPath? value)).map fun path => { s with input := some path }
  | .output => (orBad form value (readPath? value)).map fun path => { s with output := some path }
  | .target => (orBad form value (readTarget? value)).map fun t => { s with target := some t }
  | .indent =>
    (orBad form value (readWord? value)).map fun n => { s with emit := { s.emit with indent := n } }
  | .noDocs => .ok { s with emit := { s.emit with noDocs := true } }
  | .phpAccessors => .ok { s with emit := { s.emit with phpAccessors := true } }
  | .noTrailer => .ok { s with emit := { s.emit with noTrailer := true } }
  | .help => .error .help

inductive ValidateOption where
  | input
  | help
  deriving DecidableEq, Repr

def validateForms : List (OptionForm ValidateOption) :=
  [⟨.input, "input", some 'i', true⟩, ⟨.help, "help", some 'h', false⟩]

def setValidate (_ : Option String) (form : OptionForm ValidateOption) (value : String) :
    Except Stop (Option String) :=
  match form.option with
  | .input => (orBad form value (readPath? value)).map some
  | .help => .error .help

inductive TargetsOption where
  | json
  | help
  deriving DecidableEq, Repr

def targetsForms : List (OptionForm TargetsOption) :=
  [⟨.json, "json", none, false⟩, ⟨.help, "help", some 'h', false⟩]

def setTargets (_ : Bool) (form : OptionForm TargetsOption) (_ : String) : Except Stop Bool :=
  match form.option with
  | .json => .ok true
  | .help => .error .help

/-- The names of the commands. -/
def commandNames : List String := ["generate", "validate", "targets", "help"]

/-- Help may be asked for about one command. -/
def readHelp : List String → Stop
  | [] => .help
  | [name] => if name ∈ commandNames then .help else .usage (.unexpected name)
  | _ :: word :: _ => .usage (.unexpected word)

/-- A command with its arguments. -/
def readCommand (name : String) (args : List String) : Except Stop Command :=
  if name = "generate" then do
    let (flags, _) ← settle setGenerate [] .none (scan generateForms [] args)
    return .generate flags
  else if name = "validate" then do
    let (input, _) ← settle setValidate [] none (scan validateForms [] args)
    return .validate (.ofPath input)
  else if name = "targets" then do
    let (json, _) ← settle setTargets [] false (scan targetsForms [] args)
    return .targets json
  else .error (readHelp args)

/-! ### The options of the whole run -/

inductive GlobalOption where
  | verbose
  | logLevel
  | logFormat
  | version
  | help
  deriving DecidableEq, Repr

def globalForms : List (OptionForm GlobalOption) :=
  [⟨.verbose, "verbose", some 'v', false⟩, ⟨.logLevel, "log-level", none, true⟩,
   ⟨.logFormat, "log-format", none, true⟩, ⟨.version, "version", some 'V', false⟩,
   ⟨.help, "help", some 'h', false⟩]

/-- What the options before the command have said so far: whether to be verbose, and how to log. -/
def setGlobal (s : Bool × LogFormat) (form : OptionForm GlobalOption) (value : String) :
    Except Stop (Bool × LogFormat) :=
  match form.option with
  | .verbose => .ok (true, s.2)
  | .logLevel =>
    (orBad form value (if value ∈ logLevels then some s else none))
  | .logFormat => (orBad form value (readLogFormat? value)).map fun format => (s.1, format)
  | .version => .error .version
  | .help => .error .help

/-- What the arguments ask for. -/
def Invocation.ofArguments (args : List String) : Except Stop Invocation := do
  let ((verbose, logFormat), command) ←
    settle setGlobal [] (false, .compact) (scan globalForms commandNames args)
  match command with
  | none => .error (.usage .noCommand)
  | some (name, rest) => return ⟨verbose, logFormat, ← readCommand name rest⟩

end UmlSkeleton.CommandLine

import UmlSkeleton.CommandLine.Run

/-!
# The program

The steps of a run that need a real system: taking the input, printing, and writing a file.
Everything else is `UmlSkeleton.CommandLine`.
-/

namespace UmlSkeleton.CommandLine

/-- The number of an error, which some calls report below zero. -/
def errorNumber (code : UInt32) : UInt32 := if 0x80000000 ≤ code then 0 - code else code

/-- An error of the system by its number, with its text for those that have no name here. -/
def FileError.ofNumber (code : UInt32) (text : String) : FileError :=
  match errorNumber code with
  | 2 => .notFound
  | 6 => .noDevice
  | 20 => .notDirectory
  | 21 => .isDirectory
  | 28 => .noSpace
  | 36 => .nameTooLong
  | n => .other (Text.capitalize text ++ " (os error " ++ toString n ++ ")")

/-- An error of the system. -/
def FileError.ofSystem : IO.Error → FileError
  | .noFileOrDirectory _ code text => .ofNumber code text
  | .inappropriateType _ code text => .ofNumber code text
  | .invalidArgument _ code text => .ofNumber code text
  | .noSuchThing _ code text => .ofNumber code text
  | .permissionDenied _ code text => .ofNumber code text
  | .resourceExhausted _ code text => .ofNumber code text
  | .illegalOperation code text => .ofNumber code text
  | .otherError code text => .ofNumber code text
  | e => .other (toString e)

/-- Do something with a file, and keep the error if it fails. -/
def attempt (action : IO α) : IO (Except FileError α) := do
  match ← action.toBaseIO with
  | .ok a => return .ok a
  | .error e => return .error (.ofSystem e)

/-- What there is at a command's source. -/
def Place.fetch : Option Place → IO (Except FileError String)
  | none => return .ok ""
  | some .standard => do
    return (← attempt (do (← IO.getStdin).readBinToEnd)).bind decodeText
  | some (.file path) => do return (← attempt (IO.FS.readBinFile path)).bind decodeText

/-- Write a text to a file and make sure that it is there. -/
def Save.deliver (save : Save) : IO Unit := do
  let handle ← IO.FS.Handle.mk save.path .write
  handle.putStr save.text
  handle.flush

/-- Print a text to a stream, and keep the error if it fails. -/
def printOn (getStream : IO IO.FS.Stream) (text : String) : IO (Except FileError Unit) :=
  if text = "" then return .ok ()
  else attempt do
    let stream ← getStream
    stream.putStr text
    stream.flush

/-- The exit code of an ending. One for a run that is stopped from outside is the usual one. -/
def Ending.code : Ending → UInt32
  | .exit code => code.toUInt32
  | .aborted => 134

/-- End with an error. -/
def deliverError (message : String) : IO UInt32 := do
  match ← printOn IO.getStderr (errorLine message) with
  | .error _ => return Ending.brokenOff.code
  | .ok () => return 1

/-- Bring a report about, and give the exit code. -/
def Report.deliver (r : Report) : IO UInt32 := do
  match ← printOn IO.getStderr r.notes with
  | .error _ => return Ending.brokenOff.code
  | .ok () =>
    match r.conclusion with
    | .halts halt => return (Ending.ofHalt halt).code
    | .prints text error =>
      match ← printOn IO.getStdout text, error with
      | .error _, _ => return Ending.brokenOff.code
      | .ok (), none => return 0
      | .ok (), some message => deliverError message
    | .saves save =>
      match ← attempt save.deliver with
      | .error e => deliverError (save.error e)
      | .ok () => return 0

/-- Print what is said about arguments that lead to no command. -/
def Outcome.deliver (outcome : Outcome) : IO UInt32 := do
  let _ ← printOn IO.getStdout outcome.stdout
  let _ ← printOn IO.getStderr outcome.stderr
  return outcome.ending.code

/-- Streams that take everything, and a machine that does not check its arithmetic. -/
def Environment.usual (logFormat : Option String) : Environment :=
  ⟨⟨.ok ByteArray.empty, none, none⟩, logFormat, ⟨false, fun _ => true⟩⟩

end UmlSkeleton.CommandLine

open UmlSkeleton.CommandLine

def main (args : List String) : IO UInt32 := do
  let env := Environment.usual (← IO.getEnv "CLASSFORGE_LOG_FORMAT")
  match Invocation.ofArguments args with
  | .error stop => (stop.outcome env.streams).deliver
  | .ok inv => (inv.report env (← Place.fetch inv.command.source?)).deliver

/-!
# Files

A workspace holds files and directories by the names that lead to them from the root. A command runs
in one of the directories, and paths that do not begin at the root begin there. There are no links.
What the system keeps from being read or written is part of the workspace too.

A path is followed name by name. Empty names and single dots stand for the directory reached so
far, two dots for the one above. Every name on the way has to lead to a directory; the last one
need not lead to anything, so a path can say where a new file goes.

A file may be a device: then what comes out of it or goes into it belongs to no file, but perhaps to
one of the standard streams.
-/

namespace UmlSkeleton.CommandLine

/-- Why a file cannot be read or written. -/
inductive FileError where
  | notFound
  | notDirectory
  | isDirectory
  | nameTooLong
  | noSpace
  | noDevice
  /-- Its bytes are no text. -/
  | notText
  /-- Anything else, in the words of the system. -/
  | other (message : String)
  deriving DecidableEq, Repr

def FileError.message : FileError → String
  | .notFound => "No such file or directory (os error 2)"
  | .notDirectory => "Not a directory (os error 20)"
  | .isDirectory => "Is a directory (os error 21)"
  | .nameTooLong => "File name too long (os error 36)"
  | .noSpace => "No space left on device (os error 28)"
  | .noDevice => "No such device or address (os error 6)"
  | .notText => "stream did not contain valid UTF-8"
  | .other message => message

/-- The text that bytes encode. -/
def decodeText (bytes : ByteArray) : Except FileError String :=
  match String.fromUTF8? bytes with
  | some text => .ok text
  | none => .error .notText

/-! ### Paths -/

/-- The names on the way to a file. -/
abbrev Path := List String

/-- Characters, cut at the slashes among them. -/
def cutSlashes : List Char → List (List Char)
  | [] => [[]]
  | c :: cs =>
    if c = '/' then [] :: cutSlashes cs
    else
      match cutSlashes cs with
      | [] => [[c]]
      | part :: more => (c :: part) :: more

/-- The parts of a path between its slashes. -/
def pathParts (path : String) : List String := (cutSlashes path.toList).map String.ofList

/-- The last name of a path, unless the path ends by going up. -/
def fileName? (path : String) : Option String :=
  match ((pathParts path).filter fun part => part ≠ "" && part ≠ ".").getLast? with
  | none => none
  | some name => if name = ".." then none else some name

/-- What follows the last dot of a path's last name, unless that dot comes first. -/
def fileExtension? (path : String) : Option String := do
  let name ← fileName? path
  let backwards := name.toList.reverse
  match backwards.dropWhile (· ≠ '.') with
  | _ :: _ :: _ => some (String.ofList (backwards.takeWhile (· ≠ '.')).reverse)
  | _ => none

/-- How many bytes a name may have. -/
def maxNameBytes : Nat := 255

/-- How many bytes a whole path may have. -/
def maxPathBytes : Nat := 4095

/-! ### Standard streams -/

/-- The standard streams of a run. One that refuses what is printed takes nothing of it. -/
structure Streams where
  /-- What comes in, or why it cannot be read. -/
  input : Except FileError ByteArray
  /-- Why the standard output refuses what is printed, if it does. -/
  outputRefusal : Option FileError
  /-- Why the standard error refuses what is printed, if it does. -/
  errorRefusal : Option FileError

/-- Print a text to a stream. An empty text is never refused. -/
def printTo (refusal : Option FileError) (text : String) : Except FileError Unit :=
  match refusal with
  | none => .ok ()
  | some e => if text = "" then .ok () else .error e

/-! ### Devices -/

/-- Where the bytes of a device come from. -/
inductive Source where
  | content (bytes : ByteArray)
  | standardInput

/-- Where a text goes that is written to a device. -/
inductive Sink where
  | nowhere
  | standardOutput
  | standardError
  /-- A place without space for any text. -/
  | full
  deriving DecidableEq, Repr

/-- A file that is no place to keep a text. -/
structure Device where
  source : Source
  sink : Sink

/-- What writing a file leads to besides the file. -/
structure Effects where
  stdout : String
  stderr : String
  deriving DecidableEq, Repr

/-- Nothing happens besides. -/
def Effects.none : Effects := ⟨"", ""⟩

/-- The bytes that come from a source. -/
def Source.read (streams : Streams) : Source → Except FileError ByteArray
  | .content bytes => .ok bytes
  | .standardInput => streams.input

/-- What happens when a text goes to a sink. -/
def Sink.write (streams : Streams) (text : String) : Sink → Except FileError Effects
  | .nowhere => .ok .none
  | .standardOutput => do
    printTo streams.outputRefusal text
    return { Effects.none with stdout := text }
  | .standardError => do
    printTo streams.errorRefusal text
    return { Effects.none with stderr := text }
  | .full => if text = "" then .ok .none else .error .noSpace

/-! ### What there is -/

inductive Entry where
  | stored (bytes : ByteArray)
  | directory
  | device (device : Device)

/-- A file with a text. -/
def Entry.file (text : String) : Entry := .stored text.toUTF8

/-- The bytes of an entry. -/
def Entry.read (streams : Streams) : Entry → Except FileError ByteArray
  | .stored bytes => .ok bytes
  | .directory => .error .isDirectory
  | .device d => d.source.read streams

structure Workspace where
  /-- The files and directories, by the names that lead to them from the root. -/
  entries : List (Path × Entry)
  /-- The directory in which a command runs. -/
  directory : Path
  /-- Why what is at some place cannot be read, if so. -/
  unreadable : Path → Option FileError
  /-- Why nothing can be written at some place, if so. -/
  unwritable : Path → Option FileError

namespace Workspace

/-- A directory is there also when it is known only by what lies in it. -/
def implied (w : Workspace) (names : Path) : Bool :=
  names.isPrefixOf w.directory || w.entries.any fun (place, _) => names.isPrefixOf place

/-- What is at a place. -/
def entry? (w : Workspace) (names : Path) : Option Entry :=
  w.entries.lookup names <|> if w.implied names then some .directory else none

/-! ### Following a path -/

/-- Where a path begins. -/
def start (w : Workspace) (path : String) : Path :=
  if path.toList.head? = some '/' then [] else w.directory

/-- One part of a path further. The root is above itself. -/
def enter (names : Path) (part : String) : Except FileError Path :=
  if part = "" ∨ part = "." then .ok names
  else if part = ".." then .ok names.dropLast
  else if maxNameBytes < part.utf8ByteSize then .error .nameTooLong
  else .ok (names ++ [part])

/-- Where parts of a path lead. -/
def walk (w : Workspace) (names : Path) : List String → Except FileError Path
  | [] => .ok names
  | part :: more =>
    match w.entry? names with
    | none => .error .notFound
    | some .directory =>
      match enter names part with
      | .error e => .error e
      | .ok next => w.walk next more
    | some _ => .error .notDirectory

/-- Where some parts of a path lead, unless the whole path is too long. -/
def follow (w : Workspace) (path : String) (parts : List String) : Except FileError Path :=
  if maxPathBytes < path.utf8ByteSize then .error .nameTooLong else w.walk (w.start path) parts

/-! ### Reading and writing -/

/-- The bytes of a file. -/
def read (w : Workspace) (streams : Streams) (path : String) : Except FileError ByteArray := do
  let names ← w.follow path (pathParts path)
  match w.entry? names, w.unreadable names with
  | none, _ => .error .notFound
  | some _, some e => .error e
  | some entry, none => entry.read streams

/-- The parts of a path that ends with a slash, without the name before that slash. -/
def enclosingParts (path : String) : List String :=
  (((pathParts path).reverse.dropWhile (· = "")).drop 1).reverse ++ ["."]

/-- The place at which a file can be written. A slash at the end of a path means a directory,
whatever is there. -/
def writable (w : Workspace) (path : String) : Except FileError Path :=
  if path.toList.getLast? = some '/' then do
    let _ ← w.follow path (enclosingParts path)
    .error .isDirectory
  else do
    let names ← w.follow path (pathParts path)
    match w.entry? names, w.unwritable names with
    | some .directory, _ => .error .isDirectory
    | _, some e => .error e
    | _, none => .ok names

/-- The entries with one put in the place of another or at the end. -/
def put (place : Path) (entry : Entry) : List (Path × Entry) → List (Path × Entry)
  | [] => [(place, entry)]
  | (p, e) :: more => if p = place then (p, entry) :: more else (p, e) :: put place entry more

/-- The workspace after a text has been written, and what else that has led to. -/
def write (w : Workspace) (streams : Streams) (path text : String) :
    Except FileError (Workspace × Effects) := do
  let names ← w.writable path
  match w.entry? names with
  | some (.device d) => return (w, ← d.sink.write streams text)
  | _ => return ({ w with entries := put names (.file text) w.entries }, .none)

end Workspace

end UmlSkeleton.CommandLine

/-!
# The syntax of arguments

Options have a long name after two dashes and perhaps a letter after one. A value follows as the
next argument, after an equals sign, or right after the letter; an argument that begins with a dash
is no value, except a lone dash. Letters may share a dash. After two dashes alone no options follow.

`scan` splits arguments into items in the order in which they are written; what is wrong with them
becomes the last item. So an option that stops everything counts if it comes before the mistake.
-/

namespace UmlSkeleton.CommandLine

/-- What is wrong with the arguments. -/
inductive UsageError where
  | noCommand
  | unexpected (argument : String)
  | missingValue (option : String)
  | unwantedValue (option : String)
  | badValue (option value : String)
  | repeated (option : String)
  deriving DecidableEq, Repr

def UsageError.message : UsageError → String
  | .noCommand => "a command is missing"
  | .unexpected argument => "unexpected argument '" ++ argument ++ "'"
  | .missingValue option => "a value is missing for '--" ++ option ++ "'"
  | .unwantedValue option => "'--" ++ option ++ "' takes no value"
  | .badValue option value => "invalid value '" ++ value ++ "' for '--" ++ option ++ "'"
  | .repeated option => "'--" ++ option ++ "' is given more than once"

/-- How an option is written. -/
structure OptionForm (α : Type) where
  option : α
  long : String
  short : Option Char
  takesValue : Bool

/-- A piece of the command line: an option with its value (empty for a flag), a command with all
that follows it, or a mistake. -/
inductive Item (α : Type) where
  | option (form : OptionForm α) (value : String)
  | command (name : String) (rest : List String)
  | bad (error : UsageError)

/-! ### One argument -/

/-- How an argument begins: it has a long name and perhaps a value after an equals sign, or
letters, or no dash at all. -/
inductive Spelling where
  | long (name : String) (value : Option String)
  | letters (cs : List Char)
  | plain

/-- The name and the value of a long option. -/
def splitEquals (cs : List Char) : String × Option String :=
  match cs.dropWhile (· ≠ '=') with
  | [] => (String.ofList cs, none)
  | _ :: value => (String.ofList (cs.takeWhile (· ≠ '=')), some (String.ofList value))

def spelling (argument : String) : Spelling :=
  match argument.toList with
  | '-' :: '-' :: cs => .long (splitEquals cs).1 (splitEquals cs).2
  | '-' :: c :: cs => .letters (c :: cs)
  | _ => .plain

/-- Whether an argument can be the value of the option before it. -/
def isValue (argument : String) : Bool :=
  match spelling argument with
  | .plain => true
  | _ => false

/-- How letters after a dash end: with the last flag, with an option that takes a value, which
may follow at once, or with a letter that no option has. -/
inductive LettersEnd (α : Type) where
  | done
  | valued (form : OptionForm α) (value : Option String)
  | unknown

/-- The value that follows a letter at once, after an equals sign or not. -/
def attached : List Char → Option String
  | [] => none
  | '=' :: value => some (String.ofList value)
  | value => some (String.ofList value)

/-- The flags among letters, and how the letters end. -/
def splitLetters (forms : List (OptionForm α)) :
    List Char → List (OptionForm α) × LettersEnd α
  | [] => ([], .done)
  | c :: cs =>
    match forms.find? (·.short = some c) with
    | none => ([], .unknown)
    | some form =>
      if form.takesValue then ([], .valued form (attached cs))
      else (form :: (splitLetters forms cs).1, (splitLetters forms cs).2)

/-! ### All arguments -/

/-- The arguments as items, up to a command or a mistake. -/
def scan (forms : List (OptionForm α)) (commands : List String) : List String → List (Item α)
  | [] => []
  | argument :: more =>
    if argument ∈ commands then [.command argument more]
    else if argument = "--" then more.head?.toList.map fun word => .bad (.unexpected word)
    else
      match spelling argument with
      | .plain => [.bad (.unexpected argument)]
      | .long name value =>
        match forms.find? (·.long = name) with
        | none => [.bad (.unexpected argument)]
        | some form =>
          match form.takesValue, value, more with
          | true, some value, more => .option form value :: scan forms commands more
          | true, none, next :: more =>
            if isValue next then .option form next :: scan forms commands more
            else [.bad (.missingValue form.long)]
          | true, none, [] => [.bad (.missingValue form.long)]
          | false, none, more => .option form "" :: scan forms commands more
          | false, some _, _ => [.bad (.unwantedValue form.long)]
      | .letters cs =>
        let flags := (splitLetters forms cs).1.map (.option · "")
        match (splitLetters forms cs).2, more with
        | .done, more => flags ++ scan forms commands more
        | .valued form (some value), more => flags ++ .option form value :: scan forms commands more
        | .valued form none, next :: more =>
          if isValue next then flags ++ .option form next :: scan forms commands more
          else flags ++ [.bad (.missingValue form.long)]
        | .valued form none, [] => flags ++ [.bad (.missingValue form.long)]
        | .unknown, _ => flags ++ [.bad (.unexpected argument)]

/-! ### What the items say -/

/-- Why arguments lead to no command. -/
inductive Stop where
  | version
  | help
  | usage (error : UsageError)
  deriving DecidableEq, Repr

/-- Go through items, each option changing the settings once. The result is the settings and the
command with what follows it, if there is one. -/
def settle [DecidableEq α] (set : σ → OptionForm α → String → Except Stop σ) (seen : List α)
    (settings : σ) : List (Item α) → Except Stop (σ × Option (String × List String))
  | [] => .ok (settings, none)
  | .bad error :: _ => .error (.usage error)
  | .command name rest :: _ => .ok (settings, some (name, rest))
  | .option form value :: more =>
    if form.option ∈ seen then .error (.usage (.repeated form.long))
    else
      match set settings form value with
      | .error stop => .error stop
      | .ok settings => settle set (form.option :: seen) settings more

end UmlSkeleton.CommandLine

import PoolLint.Report.Level

/-!
# Command lines

A command line is read word by word from the left. A word is an option by its name, a cluster
of one-letter options, or plain; after `--` every word is plain. What the options mean is
given by a table for each command, and every option may be used once.
-/

namespace PoolLint.Command

/-- How findings are shown. -/
inductive OutputFormat where
  | text
  | json
deriving DecidableEq, Repr

/-- The format of an exact name. -/
def OutputFormat.ofName? : String → Option OutputFormat
  | "text" => some .text
  | "json" => some .json
  | _ => none

/-- What is to be checked, and how. -/
structure CheckArguments where
  paths : List String
  format : Option OutputFormat
  config : Option String
  noColor : Bool
  sequential : Bool
  noRescan : Bool
  severity : Option Severity
deriving DecidableEq, Repr

/-- What the tool is asked to do. -/
inductive Request where
  | check (args : CheckArguments)
  | kinds (config : Option String)
  | explain
  | init (dir : String)
  | version
  | help
deriving DecidableEq, Repr

/-- A request with the log level it is to be served on. -/
structure Invocation where
  verbose : Bool
  logLevel : Option LogLevel
  request : Request
deriving DecidableEq, Repr

/-- What is wrong with a command line. -/
inductive UsageError where
  | unexpected (word : String)
  | missingValue (option : String)
  | invalidValue (option value : String)
  | needlessValue (option : String)
  | repeated (option : String)
  | missingPath
  | missingCommand
deriving DecidableEq, Repr

/-- The wording of a usage error. -/
def UsageError.message : UsageError → String
  | unexpected word => s!"unexpected argument '{word}'"
  | missingValue option => s!"'{option}' needs a value"
  | invalidValue option value => s!"invalid value '{value}' for '{option}'"
  | needlessValue option => s!"'{option}' takes no value"
  | repeated option => s!"'{option}' is given twice"
  | missingPath => "no path is given"
  | missingCommand => "no command is given"

/-- Why reading ends early: the line is wrong, or asks for something that is done at once. -/
inductive Stop where
  | usage (error : UsageError)
  | help
  | version
deriving DecidableEq, Repr

/-! ## Words -/

/-- A word of a command line by its form. -/
inductive Word where
  /-- Ends the options. -/
  | escape
  /-- An option with the value that is attached to it by an equals sign. -/
  | long (name : String) (value : Option String)
  /-- Options of one letter each. -/
  | cluster (letters : List Char)
  | plain (text : String)
deriving DecidableEq, Repr

namespace Word

/-- An option, split at the first equals sign. -/
def ofLong (body : List Char) : Word :=
  let (name, rest) := body.span (· != '=')
  long (String.ofList name) (rest.tail?.map String.ofList)

/-- The form of a word. A single dash is plain. -/
def ofText (text : String) : Word :=
  match text.toList with
  | ['-', '-'] => escape
  | '-' :: '-' :: body => ofLong body
  | '-' :: c :: letters => cluster (c :: letters)
  | _ => plain text

/-- The value that a word gives to the option before it. -/
def value? (text : String) : Option String :=
  match ofText text with
  | plain text => some text
  | _ => none

end Word

/-! ## Options -/

/-- What the words of a command line do to what is read so far. -/
structure Grammar (σ : Type) where
  /-- Options that take a value. -/
  valued : String → Option (String → σ → Except Stop σ)
  /-- Options without a value. -/
  flag : String → Option (σ → Except Stop σ)
  /-- Options of one letter, none of which takes a value. -/
  letter : Char → Option (σ → Except Stop σ)
  /-- Plain words; without it, reading stops in front of the first one. -/
  plain : Option (String → σ → Except Stop σ)

namespace Grammar

variable {σ : Type} (g : Grammar σ)

/-- Reads a cluster of options of one letter. -/
def readCluster : List Char → σ → Except Stop σ
  | [], s => .ok s
  | c :: letters, s =>
    match g.letter c with
    | some act => do readCluster letters (← act s)
    | none => .error (.usage (.unexpected ("-" ++ c.toString)))

/-- Reads words that are all plain. -/
def readPlain : List String → σ → Except Stop σ
  | [], s => .ok s
  | word :: rest, s =>
    match g.plain with
    | some act => do readPlain rest (← act word s)
    | none => .error (.usage (.unexpected word))

/-- Reads an option without a value. -/
def readFlag (name : String) (value : Option String) (s : σ) : Except Stop σ :=
  match g.flag name, value with
  | none, _ => .error (.usage (.unexpected ("--" ++ name)))
  | some _, some _ => .error (.usage (.needlessValue ("--" ++ name)))
  | some act, none => act s

/-- Reads words up to the end, or up to the first plain one if these are not to be read. The
answer holds the words that are left. -/
def read : List String → σ → Except Stop (σ × List String)
  | [], s => .ok (s, [])
  | word :: rest, s =>
    match Word.ofText word with
    | .escape => do return (← g.readPlain rest s, [])
    | .cluster letters => do read rest (← g.readCluster letters s)
    | .long name value =>
      match g.valued name, value with
      | none, _ => do read rest (← g.readFlag name value s)
      | some act, some v => do read rest (← act v s)
      | some act, none =>
        match rest with
        | [] => .error (.usage (.missingValue ("--" ++ name)))
        | next :: rest =>
          match Word.value? next with
          | some v => do read rest (← act v s)
          | none => .error (.usage (.missingValue ("--" ++ name)))
    | .plain text =>
      match g.plain with
      | some act => do read rest (← act text s)
      | none => .ok (s, word :: rest)

end Grammar

/-- Sets what may be set once. -/
def setOnce {α : Type} (option : String) (old : Option α) (new : α) : Except Stop (Option α) :=
  match old with
  | none => .ok (some new)
  | some _ => .error (.usage (.repeated option))

/-- Raises a flag that may be raised once. -/
def raiseOnce (option : String) (old : Bool) : Except Stop Bool :=
  if old then .error (.usage (.repeated option)) else .ok true

/-- The value of an option, if it has one of the required form. -/
def valueOf {α : Type} (option value : String) : Option α → Except Stop α
  | some a => .ok a
  | none => .error (.usage (.invalidValue option value))

/-- A path is any text but the empty one. -/
def pathValue (option value : String) : Except Stop String :=
  valueOf option value (if value.isEmpty then none else some value)

/-- The request for help, which every command understands. -/
def helpFlag {σ : Type} : String → Option (σ → Except Stop σ)
  | "help" => some fun _ => .error .help
  | _ => none

/-- The request for help by its letter. -/
def helpLetter {σ : Type} : Char → Option (σ → Except Stop σ)
  | 'h' => some fun _ => .error .help
  | _ => none

/-! ## Commands -/

/-- The options of a check. -/
def checkGrammar : Grammar CheckArguments where
  valued
    | "format" => some fun v s => do
      let format ← valueOf "--format" v (OutputFormat.ofName? v)
      return { s with format := ← setOnce "--format" s.format format }
    | "config" => some fun v s => do
      return { s with config := ← setOnce "--config" s.config (← pathValue "--config" v) }
    | "severity" => some fun v s => do
      let severity ← valueOf "--severity" v (Severity.parse v).toOption
      return { s with severity := ← setOnce "--severity" s.severity severity }
    | _ => none
  flag
    | "no-color" => some fun s => do
      return { s with noColor := ← raiseOnce "--no-color" s.noColor }
    | "sequential" => some fun s => do
      return { s with sequential := ← raiseOnce "--sequential" s.sequential }
    | "no-rescan" => some fun s => do
      return { s with noRescan := ← raiseOnce "--no-rescan" s.noRescan }
    | name => helpFlag name
  letter := helpLetter
  plain := some fun v s => do return { s with paths := s.paths ++ [← pathValue "PATH" v] }

/-- The options of a command that has but a settings file to be told. -/
def kindsGrammar : Grammar (Option String) where
  valued
    | "config" => some fun v s => do setOnce "--config" s (← pathValue "--config" v)
    | _ => none
  flag := helpFlag
  letter := helpLetter
  plain := some fun v _ => .error (.usage (.unexpected v))

/-- A command that takes at most one directory. -/
def dirGrammar : Grammar (Option String) where
  valued _ := none
  flag := helpFlag
  letter := helpLetter
  plain := some fun v s => do
    match s with
    | none => return some (← pathValue "DIR" v)
    | some _ => .error (.usage (.unexpected v))

/-- A command that takes nothing. -/
def bareGrammar : Grammar Unit where
  valued _ := none
  flag := helpFlag
  letter := helpLetter
  plain := some fun v _ => .error (.usage (.unexpected v))

/-- The names of the commands. -/
def commandNames : List String :=
  ["check", "kinds", "explain", "init", "version", "help"]

/-- Reads what follows the name of a command. -/
def readCommand (name : String) (words : List String) : Except Stop Request :=
  match name with
  | "check" => do
    let (args, _) ← checkGrammar.read words ⟨[], none, none, false, false, false, none⟩
    if args.paths.isEmpty then .error (.usage .missingPath) else return .check args
  | "kinds" => do return .kinds (← kindsGrammar.read words none).1
  | "explain" => do
    let _ ← bareGrammar.read words ()
    return .explain
  | "init" => do return .init ((← dirGrammar.read words none).1.getD ".")
  | "version" => do
    let _ ← bareGrammar.read words ()
    return .version
  | "help" =>
    match words.filter (!commandNames.contains ·), words with
    | [], [] | [], [_] => .ok .help
    | word :: _, _ | [], _ :: word :: _ => .error (.usage (.unexpected word))
  | _ => .error (.usage (.unexpected name))

/-- What is read in front of the name of a command. -/
structure GlobalOptions where
  verbose : Bool
  logLevel : Option LogLevel
deriving DecidableEq, Repr

/-- The options in front of the name of a command. -/
def globalGrammar : Grammar GlobalOptions where
  valued
    | "log-level" => some fun v s => do
      let level ← valueOf "--log-level" v (LogLevel.parse v).toOption
      return { s with logLevel := ← setOnce "--log-level" s.logLevel level }
    | _ => none
  flag
    | "verbose" => some fun s => do
      return { s with verbose := ← raiseOnce "--verbose" s.verbose }
    | "version" => some fun _ => .error .version
    | name => helpFlag name
  letter
    | 'v' => some fun s => do return { s with verbose := ← raiseOnce "--verbose" s.verbose }
    | 'V' => some fun _ => .error .version
    | c => helpLetter c
  plain := none

/-- Reads the words of a command line up to where it is wrong or needs no further reading. -/
def readWords (words : List String) : Except Stop Invocation := do
  let (options, rest) ← globalGrammar.read words ⟨false, none⟩
  match rest with
  | [] => .error (.usage .missingCommand)
  | name :: rest =>
    return ⟨options.verbose, options.logLevel, ← readCommand name rest⟩

/-- Reads a command line. -/
def parseArguments (words : List String) : Except UsageError Invocation :=
  match readWords words with
  | .ok invocation => .ok invocation
  | .error .help => .ok ⟨false, none, .help⟩
  | .error .version => .ok ⟨false, none, .version⟩
  | .error (.usage e) => .error e

end PoolLint.Command

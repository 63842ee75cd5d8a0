import ClassLayout.Command.Usage
import ClassLayout.Log.Settings
import ClassLayout.Program

/-!
# Command lines

A command line names a command and its options. A help flag anywhere among the options of a command
asks for help on that command, whatever else is there. An option given twice counts as given last.
-/

namespace ClassLayout.Command

inductive OutputFormat
  | json
  | text
deriving DecidableEq, Repr

namespace OutputFormat

def name : OutputFormat → String
  | json => "json"
  | text => "text"

def ofName? (name : String) : Option OutputFormat :=
  let name := Text.lowered name
  if name = "json" then some json
  else if name = "text" ∨ name = "txt" then some text
  else none

end OutputFormat

/-- What is to be lowered, and where the result goes. -/
structure Request where
  input : String
  output? : Option String := none
  format : OutputFormat := .json
  options : LoweringOptions := {}
deriving DecidableEq, Repr

inductive Action
  | lower (request : Request)
  | help (topic? : Option String)
  | version
deriving DecidableEq, Repr

def Action.name : Action → String
  | lower _ => "lower"
  | help _ => "help"
  | version => "version"

structure Invocation where
  action : Action
  log : Log.Settings
deriving DecidableEq, Repr

def isHelpFlag (word : String) : Bool := word == "-h" || word == "--help"

/-- A path: not blank, and not to be taken for a flag. -/
def readPath (word : String) (absent : UsageFault) : Except UsageFault String :=
  if Text.isAllBlank word then .error .emptyPath
  else if word.startsWith "-" then .error absent
  else .ok word

/-- A request with the log settings given so far. -/
structure Draft where
  request : Request
  log : Log.Overrides := {}
deriving DecidableEq, Repr

namespace Draft

/-- The flags that take a value. -/
inductive ValueFlag
  | output
  | format
  | entryPoint
  | logFormat
  | logLevel
deriving DecidableEq, Repr

def ValueFlag.ofWord? (word : String) : Option ValueFlag :=
  if word = "-o" ∨ word = "--output" then some output
  else if word = "--format" then some format
  else if word = "--entry-point" then some entryPoint
  else if word = "--log-format" then some logFormat
  else if word = "--log-level" then some logLevel
  else none

def set (draft : Draft) (value : String) : ValueFlag → Except UsageFault Draft
  | .output =>
    (readPath value .missingOutput).map fun path =>
      { draft with request := { draft.request with output? := some path } }
  | .format =>
    match OutputFormat.ofName? value with
    | some format => .ok { draft with request := { draft.request with format } }
    | none => .error (.outputFormat value)
  | .entryPoint =>
    if Text.isAllBlank value then .error .emptyEntryPoint
    else .ok { draft with request :=
      { draft.request with options := { draft.request.options with entryPoint := value } } }
  | .logFormat =>
    match Log.Format.ofName? value with
    | some format => .ok { draft with log := { draft.log with format? := some format } }
    | none => .error (.logFormat value)
  | .logLevel =>
    match Log.Level.ofName? value with
    | some level => .ok { draft with log := { draft.log with level? := some level } }
    | none => .error (.logLevel value)

def requireEntry (draft : Draft) : Draft :=
  { draft with request :=
    { draft.request with options := { draft.request.options with policy := .required } } }

def readOptions (draft : Draft) : List String → Except UsageFault Draft
  | [] => .ok draft
  | word :: rest =>
    if word = "--require-entry" then readOptions draft.requireEntry rest
    else match ValueFlag.ofWord? word with
    | none => .error (.unsupportedOption word)
    | some flag =>
      match rest with
      | [] => .error (.missingValue word)
      | value :: rest =>
        match draft.set value flag with
        | .error fault => .error fault
        | .ok draft => readOptions draft rest

end Draft

namespace Invocation

def withEnvironment (environment : Log.Environment) (action : Action) : Invocation :=
  ⟨action, .ofEnvironment environment⟩

/-- The words after `lower`. -/
def readLower (environment : Log.Environment) (words : List String) : Except UsageFault Invocation :=
  if words.any isHelpFlag then .ok (withEnvironment environment (.help (some "lower")))
  else match words with
  | [] => .error .missingInput
  | input :: rest =>
    match readPath input .missingInput with
    | .error fault => .error fault
    | .ok input =>
      (Draft.readOptions { request := { input } } rest).map fun draft =>
        ⟨.lower draft.request, (Log.Settings.ofEnvironment environment).override draft.log⟩

def readHelp (environment : Log.Environment) (words : List String) : Invocation :=
  withEnvironment environment
    (.help ((words.head?.filter fun word => !isHelpFlag word).map Text.lowered))

def readVersion (environment : Log.Environment) (words : List String) : Except UsageFault Invocation :=
  if words.any isHelpFlag then .ok (withEnvironment environment (.help (some "version")))
  else if words.isEmpty then .ok (withEnvironment environment .version)
  else .error .surplusArguments

/-- A command line, without the name of the program. -/
def ofWords (environment : Log.Environment) : List String → Except UsageFault Invocation
  | [] => .error .missingCommand
  | word :: rest =>
    if word = "help" ∨ word = "--help" ∨ word = "-h" then .ok (readHelp environment rest)
    else if word = "version" ∨ word = "--version" ∨ word = "-V" then readVersion environment rest
    else if word = "lower" ∨ word = "compile" then readLower environment rest
    else .error (.unknownCommand word)

end Invocation

end ClassLayout.Command

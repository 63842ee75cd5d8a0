import ClassLayout.Artifact
import ClassLayout.Command.Arguments
import ClassLayout.Listing
import ClassLayout.Lowering
import ClassLayout.Storage

/-!
# Running a command line

A run reads and writes through a storage and gives back what it prints, its log and its failure, if
it fails. The input is lowered before anything is written.
-/

namespace ClassLayout.Command

def Action.inputName : Action → String
  | .lower request => request.input
  | _ => "<none>"

def startEvent (action : Action) (log : Log.Settings) : Log.Event where
  level := .info
  fields :=
    let entry : String × String := match action with
      | .lower request => (request.options.entryPoint, request.options.policy.name)
      | _ => ("-", "-")
    [Log.stage "cli.run.start", ("command", .quoted action.name), ("log_level", .bare log.level.name),
      ("log_format", .bare log.format.name), ("input", .bare action.inputName),
      ("entry_point", .quoted entry.1), ("entry_policy", .quoted entry.2)]

def footerEvent (action : Action) (failure? : Option Error) : Log.Event :=
  let fields (status : String) :=
    [Log.stage "cli.run.footer", ("command", .quoted action.name), ("status", .quoted status),
      ("input", .bare action.inputName)]
  match failure? with
  | none => { level := .info, fields := fields "ok" }
  | some error =>
    { level := .error, fields := fields "error" ++ [("error", .bare error.message)] }

def doneEvent (stage path : String) : Log.Event where
  level := .info
  fields := [Log.stage stage, ("status", .quoted "ok"), ("path", .bare path)]

def writtenEvent (path : String) (format : OutputFormat) (program : Program) : Log.Event where
  level := .info
  fields := [Log.stage "cli.lower.write", ("path", .bare path), ("format", .quoted format.name),
    ("classes", .count program.emitted.length)]

/-- A program in the form asked for. -/
def render (program : Program) (format : OutputFormat) : Except Error String :=
  let text := match format with
    | .json => program.artifact.map fun value : Json.Value => value.indented ++ "\n"
    | .text => program.text
  match text with
  | .ok text => .ok text
  | .error dangling =>
    .error (.internal ("no class at position " ++ toString dangling.position))

/-- What a command does: what it prints, tells, and fails with. -/
structure Outcome where
  output : String := ""
  events : List Log.Event := []
  failure? : Option Error := none

namespace Outcome

def failed (error : Error) (events : List Log.Event) : Outcome := { events, failure? := some error }

def exitCode (outcome : Outcome) : Nat := if outcome.failure?.isSome then 1 else 0

/-- What is told to the user apart from the log. -/
def report (outcome : Outcome) : String :=
  match outcome.failure? with
  | some error => error.report
  | none => ""

end Outcome

variable {m : Type → Type} [Monad m]

def runLower (storage : Storage m) (request : Request) : m Outcome := do
  match ← storage.read request.input with
  | .error e => return .failed (.storage e) []
  | .ok source =>
    let events := doneEvent "driver.read" request.input :: sourceEvents source request.options
    match lowerSource source request.options with
    | .error e => return .failed e events
    | .ok program =>
      let events := events ++ [doneEvent "driver.lower" request.input]
      match render program request.format with
      | .error e => return .failed e events
      | .ok text =>
        match request.output? with
        | none => return { output := text, events }
        | some path =>
          match ← storage.write path text with
          | .error e => return .failed (.storage e) events
          | .ok () => return { events := events ++ [writtenEvent path request.format program] }

def runAction (storage : Storage m) : Action → m Outcome
  | .lower request => runLower storage request
  | .help topic? =>
    match helpText topic? with
    | .ok text => return { output := text }
    | .error fault => return .failed (.usage fault) []
  | .version => return { output := programName ++ " " ++ programVersion ++ "\n" }

/-- A run of the program on a command line. The log holds the events that are to be shown; there is
none when the command line is at fault. -/
def run (storage : Storage m) (environment : Log.Environment) (words : List String) : m Outcome := do
  match Invocation.ofWords environment words with
  | .error fault => return .failed (.usage fault) []
  | .ok invocation =>
    let log := invocation.log.resolved
    let outcome ← runAction storage invocation.action
    let events := startEvent invocation.action log :: outcome.events ++
      [footerEvent invocation.action outcome.failure?]
    return { outcome with events := Log.shown (log.threshold? environment) events }

/-- The format in which the log of a command line is written. -/
def logFormat (environment : Log.Environment) (words : List String) : Log.Format :=
  match Invocation.ofWords environment words with
  | .error _ => .text
  | .ok invocation => invocation.log.resolved.format

end ClassLayout.Command

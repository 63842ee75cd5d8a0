import ClassLayout.Command.Help

/-!
# Faults of a command line
-/

namespace ClassLayout.Command

inductive UsageFault
  | missingCommand
  | unknownCommand (name : String)
  | surplusArguments
  | missingInput
  | emptyPath
  | missingOutput
  | missingValue (flag : String)
  | logFormat (value : String)
  | logLevel (value : String)
  | outputFormat (value : String)
  | emptyEntryPoint
  | unsupportedOption (name : String)
  | unknownTopic (topic : String)
  /-- A fault in words, with or without the usage after it. -/
  | described (message : String) (withUsage : Bool)
deriving DecidableEq, Repr

namespace UsageFault

def reason : UsageFault → String
  | missingCommand => "missing command"
  | unknownCommand name => "unknown command '" ++ name ++ "'"
  | surplusArguments => "flatclass version does not accept additional arguments"
  | missingInput => "lower requires <ast.json> argument"
  | emptyPath => "input path must not be empty"
  | missingOutput => "expected path after --output"
  | missingValue flag => "expected value after " ++ flag
  | logFormat value => "invalid log format '" ++ value ++ "'; supported values: auto, text, json"
  | logLevel value =>
    "invalid log level '" ++ value ++ "'; supported values: error, warn, info, debug, trace"
  | outputFormat value => "invalid output format '" ++ value ++ "'; supported values: json, text"
  | emptyEntryPoint => "entry point name must not be empty"
  | unsupportedOption name => "unsupported option '" ++ name ++ "' for command"
  | unknownTopic topic =>
    "unknown help topic '" ++ topic ++ "'; available commands: help, lower, version"
  | described message _ => message

def showsUsage : UsageFault → Bool
  | described _ withUsage => withUsage
  | _ => true

def message (fault : UsageFault) : String :=
  if fault.showsUsage then fault.reason ++ "\n\n" ++ usage else fault.reason

end UsageFault

/-- The help on a topic, or the general usage. -/
def helpText : Option String → Except UsageFault String
  | none => .ok usage
  | some topic =>
    match Guide.find? topic with
    | some guide => .ok guide.render
    | none => .error (.unknownTopic topic)

end ClassLayout.Command

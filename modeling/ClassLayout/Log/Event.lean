import ClassLayout.Json.Value
import ClassLayout.Text.Blank
import ClassLayout.Text.Quoted

/-!
# Log events

What a run tells about itself: a severity, perhaps a message, and named values. An event is shown
when its level is at most the level asked for.
-/

namespace ClassLayout.Log

/-- Severities, the worst first. -/
inductive Level
  | error
  | warn
  | info
  | debug
  | trace
deriving DecidableEq, Repr

namespace Level

def name : Level → String
  | error => "error"
  | warn => "warn"
  | info => "info"
  | debug => "debug"
  | trace => "trace"

def label (level : Level) : String := level.name.map Char.toUpper

/-- How much is shown at this level. -/
def verbosity : Level → Nat
  | error => 0
  | warn => 1
  | info => 2
  | debug => 3
  | trace => 4

def ofName? (name : String) : Option Level :=
  let name := Text.lowered (Text.trim name)
  if name = "error" ∨ name = "err" then some error
  else if name = "warn" ∨ name = "warning" then some warn
  else if name = "info" then some info
  else if name = "debug" then some debug
  else if name = "trace" ∨ name = "verbose" then some trace
  else none

end Level

/-- A named value: text that is quoted in lines, text that is not, or a number. -/
inductive Datum
  | quoted (text : String)
  | bare (text : String)
  | count (value : Nat)
  | fingerprint (value : Nat)
deriving DecidableEq, Repr

structure Event where
  level : Level
  fields : List (String × Datum)
  message? : Option String := none
deriving DecidableEq, Repr

/-- The part of a program that events are attributed to. -/
def target : String := "pipeline"

def Datum.text : Datum → String
  | quoted text => Text.quoted text
  | bare text => text
  | count value => toString value
  | fingerprint value => toString value

def Datum.toJson : Datum → Json.Value
  | quoted text => .text text
  | bare text => .text text
  | count value => .number value
  | fingerprint value => .number value

namespace Event

def shownAt (event : Event) (level : Level) : Bool := event.level.verbosity ≤ level.verbosity

/-- The event as a line, the message first. -/
def line (event : Event) : String :=
  event.level.label ++ " " ++ target ++ ": " ++ " ".intercalate
    (event.message?.toList ++ event.fields.map fun (name, datum) => name ++ "=" ++ datum.text)

def toJson (event : Event) : Json.Value :=
  .record [("level", .text event.level.label),
    ("fields", .record (Json.optionalEntry "message" event.message? ++
      event.fields.map fun (name, datum) => (name, datum.toJson))),
    ("target", .text target)]

end Event

end ClassLayout.Log

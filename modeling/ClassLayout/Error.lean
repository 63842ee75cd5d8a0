import ClassLayout.Command.Usage
import ClassLayout.Json.Mismatch
import ClassLayout.Program
import ClassLayout.Storage

/-!
# Why a run fails
-/

namespace ClassLayout

inductive Error
  | storage (cause : StorageError)
  | usage (cause : Command.UsageFault)
  | input (cause : Json.DecodeError)
  | hierarchy (cause : HierarchyError)
  | entryPoint (cause : EntryFault)
  | internal (message : String)
deriving DecidableEq, Repr

namespace Error

def message : Error → String
  | storage cause => "I/O error: " ++ cause.message
  | usage cause => cause.message
  | input .malformed => "invalid AST input"
  | input (.mismatch reason) => "invalid AST input: " ++ reason.message
  | hierarchy cause => "lowering error: " ++ cause.message
  | entryPoint cause => "entry point error: " ++ cause.message
  | internal message => "internal error: " ++ message

/-- The message of the fault behind an error, where there is one of its own. -/
def sourceMessage? : Error → Option String
  | storage cause => some cause.message
  | usage cause => some cause.message
  | input .malformed => none
  | input (.mismatch reason) => some reason.message
  | hierarchy cause => some cause.message
  | entryPoint _ => none
  | internal _ => none

/-- What might help. -/
def hint? : Error → Option String
  | hierarchy (.unresolvedParent _ parent) =>
    some ("declare class `" ++ parent ++ "` in the same compilation unit")
  | hierarchy (.circularInheritance (first :: _)) =>
    some ("break the cycle by changing the parent of `" ++ first ++ "`")
  | _ => none

/-- The error as it is told to the user. -/
def report (error : Error) : String :=
  match error with
  | usage _ => error.message ++ "\n"
  | _ =>
    "error: " ++ error.message ++ "\n" ++
      match error.hint? with
      | some hint => "  = help: " ++ hint ++ "\n"
      | none => ""

end Error

end ClassLayout

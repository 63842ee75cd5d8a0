import ClassLayout.Error
import ClassLayout.Log.Lowering
import ClassLayout.Source.Decode

/-!
# From a text to a program

The whole way from a unit written as JSON to its program: the text is read, the unit is lowered,
and the program is held against the entry policy. What goes wrong first is reported.
-/

namespace ClassLayout

/-- The program of a unit written as JSON, under the entry policy of the options. -/
def lowerSource (text : String) (options : LoweringOptions) : Except Error Program :=
  match Source.Unit.ofJson text with
  | .error e => .error (.input e)
  | .ok unit =>
    match lower unit options.entryPoint with
    | .error e => .error (.hierarchy e)
    | .ok program =>
      match options.check program with
      | .error e => .error (.entryPoint e)
      | .ok () => .ok program

/-- What lowering a unit written as JSON tells. -/
def sourceEvents (text : String) (options : LoweringOptions) : List Log.Event :=
  match Source.Unit.ofJson text with
  | .error _ => []
  | .ok unit => Log.loweringEvents unit options.entryPoint

end ClassLayout

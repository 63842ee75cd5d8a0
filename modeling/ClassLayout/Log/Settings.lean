import ClassLayout.Log.Event

/-!
# Log settings

Format and level of the log each come from a flag, else from the environment, else from the
defaults. Values in the environment that make no sense are ignored.
-/

namespace ClassLayout.Log

inductive Format
  | auto
  | text
  | json
deriving DecidableEq, Repr

namespace Format

def name : Format → String
  | auto => "auto"
  | text => "text"
  | json => "json"

def ofName? (name : String) : Option Format :=
  let name := Text.lowered (Text.trim name)
  if name = "auto" then some auto
  else if name = "text" ∨ name = "plain" ∨ name = "compact" then some text
  else if name = "json" then some json
  else none

end Format

structure Settings where
  format : Format := .auto
  level : Level := .warn
deriving DecidableEq, Repr

/-- Settings given explicitly. -/
structure Overrides where
  format? : Option Format := none
  level? : Option Level := none
deriving DecidableEq, Repr

/-- The values of the variables that affect the log, where they are set. -/
structure Environment where
  format? : Option String := none
  level? : Option String := none
  filter? : Option String := none
deriving DecidableEq, Repr

def Overrides.isEmpty (overrides : Overrides) : Bool :=
  overrides.format?.isNone && overrides.level?.isNone

def Environment.overrides (environment : Environment) : Overrides where
  format? := environment.format?.bind Format.ofName?
  level? := environment.level?.bind Level.ofName?

namespace Settings

def override (settings : Settings) (overrides : Overrides) : Settings where
  format := overrides.format?.getD settings.format
  level := overrides.level?.getD settings.level

def ofEnvironment (environment : Environment) : Settings := override {} environment.overrides

/-- The settings with the format decided. -/
def resolved (settings : Settings) : Settings :=
  { settings with format := if settings.format = .auto then .text else settings.format }

/-- The level up to which events are shown, or `none` when no event is. The filter of the
environment wins over the level of the settings if it is the name of a level, or `off`. -/
def threshold? (settings : Settings) (environment : Environment) : Option Level :=
  match environment.filter? with
  | none => some settings.level
  | some filter =>
    let filter := Text.lowered filter
    if filter = "off" then none
    else if filter = "error" then some .error
    else if filter = "warn" then some .warn
    else if filter = "info" then some .info
    else if filter = "debug" then some .debug
    else if filter = "trace" then some .trace
    else some settings.level

end Settings

/-- The events that are shown up to a threshold. -/
def shown (threshold? : Option Level) (events : List Event) : List Event :=
  match threshold? with
  | none => []
  | some level => events.filter (·.shownAt level)

end ClassLayout.Log

import ClassLayout.Text.Blank

/-!
# Help texts

What the program says about itself: the general usage, and one guide for each command.
-/

namespace ClassLayout.Command

/-- The name under which the program is called. -/
def programName : String := "flatclass"

def programVersion : String := "0.1.0"

structure FlagGuide where
  flag : String
  description : String

structure Guide where
  name : String
  aliases : List String := []
  summary : String
  usage : List String
  flags : List FlagGuide := []
  examples : List String := []

namespace Guide

def globalFlags : List FlagGuide :=
  [⟨"-h, --help", "Show contextual help information."⟩,
    ⟨"-V, --version", "Print the flatclass version."⟩]

def logFlags : List FlagGuide :=
  [⟨"--log-format <auto|text|json>", "Log event format on stderr (env FLATCLASS_LOG_FORMAT)."⟩,
    ⟨"--log-level <level>", "error, warn, info, debug or trace (env FLATCLASS_LOG_LEVEL)."⟩]

def lower : Guide where
  name := "lower"
  aliases := ["compile"]
  summary := "Resolve class layouts and vtables from a JSON syntax tree."
  usage := ["flatclass lower <ast.json> [-o <out>] [--format json|text] [options]"]
  flags :=
    [⟨"-o, --output <path>", "Write the artifact to <path> instead of stdout."⟩,
      ⟨"--format <json|text>", "Artifact format (default json)."⟩,
      ⟨"--entry-point <name>", "Method that marks the driver class (default main)."⟩,
      ⟨"--require-entry", "Fail unless exactly one class declares the entry point."⟩]
  examples :=
    ["flatclass lower build/ast.json -o build/classes.json",
      "flatclass lower ast.json --format text --log-level info"]

def help : Guide where
  name := "help"
  summary := "Show general help or help for one command."
  usage := ["flatclass help [command]"]
  examples := ["flatclass help lower"]

def version : Guide where
  name := "version"
  summary := "Print the flatclass version."
  usage := ["flatclass version", "flatclass --version"]

def all : List Guide := [lower, help, version]

/-- The guide for a command or one of its other names, in any letter case. -/
def find? (topic : String) : Option Guide :=
  let topic := Text.lowered topic
  all.find? fun guide => guide.name == topic || guide.aliases.contains topic

/-- Text filled up with blanks to a width. -/
def column (width : Nat) (text : String) : String :=
  String.ofList (text.toList ++ List.replicate (width - text.length) ' ')

def lines (texts : List String) : String := String.join (texts.map (· ++ "\n"))

def flagLines (width : Nat) (flags : List FlagGuide) : List String :=
  flags.map fun flag => "  " ++ column width flag.flag ++ " " ++ flag.description

/-- A titled block after an empty line, left out when it has no lines. -/
def block (title : String) (texts : List String) : List String :=
  if texts.isEmpty then [] else ["", title ++ ":"] ++ texts

def render (guide : Guide) : String :=
  lines (["flatclass " ++ guide.name ++ " - " ++ guide.summary, "", "USAGE:"] ++
    guide.usage.map ("  " ++ ·) ++
    block "ALIASES" (guide.aliases.map ("  " ++ ·)) ++
    block "OPTIONS"
      (if guide.flags.isEmpty then [] else flagLines 30 (guide.flags ++ logFlags)) ++
    block "EXAMPLES" (guide.examples.map ("  " ++ ·)))

end Guide

/-- The general usage. -/
def usage : String :=
  Guide.lines (["flatclass - lower single-inheritance classes to flat layouts and vtables", "",
    "USAGE:", "  flatclass <command> [options]", "", "COMMANDS:"] ++
    Guide.all.map (fun guide => "  " ++ Guide.column 9 guide.name ++ " " ++ guide.summary) ++
    ["", "GLOBAL OPTIONS:"] ++ Guide.flagLines 18 Guide.globalFlags ++
    ["", "Use `flatclass help <command>` to view detailed usage and examples."])

end ClassLayout.Command

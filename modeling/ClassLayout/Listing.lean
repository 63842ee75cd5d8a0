import ClassLayout.Program

/-!
# Listings

A program as text for readers: the package, and each class with its members and its table.
-/

namespace ClassLayout

namespace Listing

def staticMark (static : Bool) : String := if static then " static" else ""

def field (field : Field) : String :=
  field.access.keyword ++ staticMark field.static ++ " " ++ field.type ++ " " ++ field.name ++
    (if field.initial.isEmpty then "" else " = " ++ field.initial) ++
    match field.origin? with
    | some origin => " (from " ++ origin ++ ")"
    | none => ""

def params (params : List Param) : String :=
  ", ".intercalate (params.map fun param => param.name ++ ": " ++ param.type)

def constructor (constructor : Constructor) : String :=
  constructor.access.keyword ++ " " ++ constructor.name ++ "(" ++ params constructor.params ++ ")"

def method (method : Method) : String :=
  method.access.keyword ++ staticMark method.static ++ " " ++ method.result ++ " " ++ method.name ++
    "(" ++ params method.params ++ ")"

def slot (index : Nat) (slot : Slot) : String :=
  "[" ++ toString index ++ "] " ++ slot.name ++ ": " ++ slot.decl.signature.pointerType ++ " = " ++
    slot.binding.target.render

/-- A headed block of lines, left out when there is no line. -/
def block (title : String) (lines : List String) : List String :=
  if lines.isEmpty then [] else ("  " ++ title ++ ":") :: lines.map ("    " ++ ·)

def entry (entry : Entry) (parent? : Option String) : List String :=
  let extending := match parent? with
    | some parent => " extends " ++ parent
    | none => ""
  ["class " ++ entry.name ++ extending ++ " \x7b"] ++
    block "fields" (entry.members.fields.map field) ++
    block "constructors" (entry.members.constructors.map constructor) ++
    block "methods" (entry.members.methods.map method) ++
    ["  vtable:"] ++ (entry.table.slots.zipIdx.map fun (s, index) => "    " ++ slot index s) ++
    ["\x7d"]

/-- Lines, each with its end. -/
def text (lines : List String) : String := String.join (lines.map (· ++ "\n"))

/-- The listing of classes, each with the name of its parent. -/
def render (package : String) (classes : List (Entry × Option String)) : String :=
  text (("package " ++ if package.isEmpty then "<default>" else package) ::
    classes.flatMap fun (e, parent?) => "" :: entry e parent?)

end Listing

def Program.text (program : Program) : Except Dangling String :=
  program.lineage.map (Listing.render program.package)

end ClassLayout

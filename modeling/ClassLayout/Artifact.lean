import ClassLayout.Json.Value
import ClassLayout.Program

/-!
# Artifacts

A program as JSON for the tools that come after: every class with its members, its table and the
table's fingerprint.
-/

namespace ClassLayout

open Json (Value optionalEntry)

def FieldKind.label : FieldKind → String
  | plain => "plain"
  | tablePointer => "v-table-pointer"
  | tableInstance => "v-table-instance"

def SlotKind.label : SlotKind → String
  | identity => "type-identity"
  | method => "method"

def Param.toJson (param : Param) : Value :=
  .record [("type", .text param.type), ("name", .text param.name)]

def paramsToJson (params : List Param) : Value := .list (params.map Param.toJson)

def Field.toJson (field : Field) : Value :=
  .record ([("access", .text field.access.keyword), ("is_static", .bool field.static),
    ("type", .text field.type), ("name", .text field.name), ("initializer", .text field.initial),
    ("kind", .text field.kind.label)] ++ optionalEntry "inherited_from" field.origin?)

def Constructor.toJson (constructor : Constructor) : Value :=
  .record [("access", .text constructor.access.keyword), ("name", .text constructor.name),
    ("parameters", paramsToJson constructor.params)]

def Method.toJson (method : Method) : Value :=
  .record [("access", .text method.access.keyword), ("is_static", .bool method.static),
    ("return_type", .text method.result), ("name", .text method.name),
    ("parameters", paramsToJson method.params)]

def Members.toEntries (members : Members) : List (String × Value) :=
  [("fields", .list (members.fields.map Field.toJson)),
    ("constructors", .list (members.constructors.map Constructor.toJson)),
    ("methods", .list (members.methods.map Method.toJson))]

def Signature.toJson (signature : Signature) : Value :=
  .record [("receiver", .orNull signature.receiver?), ("parameters", .texts signature.params),
    ("return_type", .text signature.result)]

def Target.toJson : Target → Value
  | own owner method =>
    .record [("kind", .text "direct-address"), ("class", .text owner), ("method", .text method)]
  | forward signature definer method =>
    .record [("kind", .text "cast-forward"), ("signature", signature.toJson),
      ("defining_class", .text definer), ("method", .text method)]
  | identity owner => .record [("kind", .text "type-identity"), ("class", .text owner)]

def SlotDecl.toEntries (decl : SlotDecl) : List (String × Value) :=
  [("access", .text decl.access.keyword), ("is_static", .bool decl.static),
    ("kind", .text decl.kind.label), ("name", .text decl.name),
    ("signature", decl.signature.toJson)] ++ optionalEntry "inherited_from" decl.origin?

def Slot.toJson (index : Nat) (slot : Slot) : Value :=
  .record (("index", .number index) :: slot.decl.toEntries ++
    [("pointer_type", .text slot.decl.signature.pointerType),
      ("initializer", slot.binding.target.toJson), ("rendered", .text slot.binding.target.render)])

def Table.toJson (table : Table) : Value :=
  .list (table.slots.zipIdx.map fun (slot, index) => slot.toJson index)

def Entry.toJson (entry : Entry) (parent? : Option String) : Value :=
  .record ([("name", .text entry.name), ("parent", .orNull parent?)] ++ entry.members.toEntries ++
    [("vtable_version", .number (entry.table.fingerprint entry.name)), ("vtable", entry.table.toJson)])

def artifactVersion : String := "0.1"

namespace Program

def toJson (program : Program) (classes : List (Entry × Option String)) : Value :=
  .record ([("version", .text artifactVersion), ("package", .text program.package)] ++
    optionalEntry "entry_class" program.entryClass? ++
    [("classes", .list (classes.map fun (entry, parent?) => entry.toJson parent?))])

def artifact (program : Program) : Except Dangling Value := program.lineage.map program.toJson

end Program

end ClassLayout

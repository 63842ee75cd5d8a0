import ClassLayout.Json.Value
import ClassLayout.Source.Basic

/-!
# Units as JSON

The canonical form of a unit: records with every key, in a fixed order, and `null` for what is
absent.
-/

namespace ClassLayout.Source

open Json (Value)

namespace TypeExpr

def toJson (type : TypeExpr) : Value :=
  .record [("name", .text type.name), ("dimensions", .number type.dimensions)]

end TypeExpr

def resultToJson (result? : Option TypeExpr) : Value :=
  match result? with
  | none => .text "void"
  | some type => .record [("type", type.toJson)]

def Param.toJson (param : Param) : Value :=
  .record [("modifiers", .texts param.modifiers), ("type", param.type.toJson),
    ("name", .text param.name)]

def initialToJson (initial? : Option String) : Value :=
  match initial? with
  | none => .null
  | some text => .record [("text", .text text)]

def Declarator.toJson (declarator : Declarator) : Value :=
  .record [("name", .text declarator.name), ("initializer", initialToJson declarator.initial?)]

/-- The fields of a member, its kind apart. -/
def Member.fieldsToJson : Member → List (String × Value)
  | .field decl =>
    [("modifiers", .texts decl.modifiers), ("type", decl.type.toJson),
      ("declarators", .list (decl.declarators.map Declarator.toJson))]
  | .constructor decl =>
    [("modifiers", .texts decl.modifiers), ("name", .text decl.name),
      ("parameters", .list (decl.params.map Param.toJson))]
  | .method decl =>
    [("modifiers", .texts decl.modifiers), ("result", resultToJson decl.result?),
      ("name", .text decl.name), ("parameters", .list (decl.params.map Param.toJson))]

def Member.kindName : Member → String
  | .field _ => "field"
  | .constructor _ => "constructor"
  | .method _ => "method"

def Member.toJson (member : Member) : Value :=
  .record (("kind", .text member.kindName) :: member.fieldsToJson)

def parentToJson (parent? : Option TypeExpr) : Value :=
  match parent? with
  | none => .null
  | some type => .record [("type", type.toJson)]

def Class.toJson (decl : Class) : Value :=
  .record [("modifiers", .texts decl.modifiers), ("name", .text decl.name),
    ("extension", parentToJson decl.parent?), ("members", .list (decl.members.map Member.toJson))]

def packageToJson (package? : Option (List String)) : Value :=
  match package? with
  | none => .null
  | some segments => .record [("segments", .texts segments)]

def Unit.toJson (unit : Unit) : Value :=
  .record [("package", packageToJson unit.package?), ("classes", .list (unit.classes.map Class.toJson))]

end ClassLayout.Source

import ClassLayout.Json.Shape
import ClassLayout.Source.Basic

/-!
# Units from JSON

A member is taken in whole before its fields are read, because its kind, which may stand anywhere
in it, says which fields it has. Only the kind itself is looked at on the way.
-/

namespace ClassLayout.Source

open Json

structure TypeParts where
  name? : Option String := none
  dimensions? : Option Nat := none

def typeShape : Shape TypeParts TypeExpr where
  name := "TypeNode"
  fields :=
    [.part "name" readText (·.name?) fun p v => { p with name? := some v },
      .part "dimensions" readCount (·.dimensions?) fun p v => { p with dimensions? := some v }]
  blank := {}
  build p := (need "name" p.name?).map fun name => ⟨name, p.dimensions?.getD 0⟩

structure ParamParts where
  modifiers? : Option (List String) := none
  type? : Option TypeExpr := none
  name? : Option String := none

def paramShape : Shape ParamParts Param where
  name := "FormalParameter"
  fields :=
    [.part "modifiers" (readList readText) (·.modifiers?) fun p v => { p with modifiers? := some v },
      .part "type" (typeShape.read .buffered) (·.type?) fun p v => { p with type? := some v },
      .part "name" readText (·.name?) fun p v => { p with name? := some v }]
  blank := {}
  build p := do
    let type ← need "type" p.type?
    let name ← need "name" p.name?
    return ⟨p.modifiers?.getD [], type, name⟩

structure DeclaratorParts where
  name? : Option String := none
  initial? : Option (Option String) := none

def declaratorShape : Shape DeclaratorParts Declarator where
  name := "Declarator"
  fields :=
    [.part "name" readText (·.name?) fun p v => { p with name? := some v },
      .part "initializer" (readOptional ((Shape.sole "Expression" "text" readText).read .buffered))
        (·.initial?) fun p v => { p with initial? := some v }]
  blank := {}
  build p := (need "name" p.name?).map fun name => ⟨name, p.initial?.getD none⟩

structure FieldParts where
  modifiers? : Option (List String) := none
  type? : Option TypeExpr := none
  declarators? : Option (List Declarator) := none

def fieldShape : Shape FieldParts FieldDecl where
  name := "FieldDeclaration"
  fields :=
    [.part "modifiers" (readList readText) (·.modifiers?) fun p v => { p with modifiers? := some v },
      .part "type" (typeShape.read .buffered) (·.type?) fun p v => { p with type? := some v },
      .part "declarators" (readList (declaratorShape.read .buffered)) (·.declarators?)
        fun p v => { p with declarators? := some v }]
  blank := {}
  build p := do
    let type ← need "type" p.type?
    let declarators ← need "declarators" p.declarators?
    return ⟨p.modifiers?.getD [], type, declarators⟩

structure ConstructorParts where
  modifiers? : Option (List String) := none
  name? : Option String := none
  params? : Option (List Param) := none

def constructorShape : Shape ConstructorParts ConstructorDecl where
  name := "ConstructorDeclaration"
  fields :=
    [.part "modifiers" (readList readText) (·.modifiers?) fun p v => { p with modifiers? := some v },
      .part "name" readText (·.name?) fun p v => { p with name? := some v },
      .part "parameters" (readList (paramShape.read .buffered)) (·.params?)
        fun p v => { p with params? := some v }]
  blank := {}
  build p := (need "name" p.name?).map fun name => ⟨p.modifiers?.getD [], name, p.params?.getD []⟩

/-- The choices for a method's result. -/
def resultVariants : List String := ["void", "type"]

/-- What `void` may hold when it is written as a key: nothing. -/
def readNothing : Tree → Decoded (Option TypeExpr)
  | .null => .ok none
  | .record .done => .ok none
  | tree => .error (tree.unexpected "unit")

def readResult : Tree → Decoded (Option TypeExpr)
  | .text (some name) =>
    if name = "void" then .ok none
    else if name = "type" then .error (.mismatch (.type .bareVariant "newtype variant"))
    else .error (.mismatch (.variant name resultVariants))
  | .record (.next (some name) value .done) =>
    if name = "void" then readNothing value
    else if name = "type" then (typeShape.read .buffered value).map some
    else .error (.mismatch (.variant name resultVariants))
  | .record _ => .error (.mismatch (.value .record "map with a single key"))
  | tree => .error (tree.unexpected "string or map")

structure MethodParts where
  modifiers? : Option (List String) := none
  result? : Option (Option TypeExpr) := none
  name? : Option String := none
  params? : Option (List Param) := none

def methodShape : Shape MethodParts MethodDecl where
  name := "MethodDeclaration"
  fields :=
    [.part "modifiers" (readList readText) (·.modifiers?) fun p v => { p with modifiers? := some v },
      .part "result" readResult (·.result?) fun p v => { p with result? := some v },
      .part "name" readText (·.name?) fun p v => { p with name? := some v },
      .part "parameters" (readList (paramShape.read .buffered)) (·.params?)
        fun p v => { p with params? := some v }]
  blank := {}
  build p := do
    let result ← need "result" p.result?
    let name ← need "name" p.name?
    return ⟨p.modifiers?.getD [], result, name, p.params?.getD []⟩

inductive MemberKind
  | field
  | constructor
  | method
deriving DecidableEq, Repr

def kindKey : String := "kind"

def memberVariants : List String := ["field", "constructor", "method"]

def readKind : Tree → Decoded MemberKind
  | .text (some name) =>
    if name = "field" then .ok .field
    else if name = "constructor" then .ok .constructor
    else if name = "method" then .ok .method
    else .error (.mismatch (.variant name memberVariants))
  | tree => .error (tree.unexpected "variant identifier")

/-- The containers that may be open inside a value of a member: 127 altogether, less the unit, its
classes, the class, its members and the member. -/
def memberRoom : Nat := 127 - 5

/-- The kind among the entries of a member, and the other entries, all of them plain. -/
def takeKind (kind? : Option MemberKind) : Entries → Decoded (Option MemberKind × Entries)
  | .done => .ok (kind?, .done)
  | .cut => .error .malformed
  | .next key value tail =>
    match key with
    | none => .error .malformed
    | some key =>
      if key = kindKey then
        if kind?.isSome then .error (.mismatch (.duplicate kindKey))
        else match readKind value with
        | .error e => .error e
        | .ok kind => takeKind (some kind) tail
      else if value.isPlain memberRoom then
        (takeKind kind? tail).map fun found => (found.1, .next (some key) value found.2)
      else .error .malformed

/-- The fields of a member of a known kind, given with their keys or in order. -/
def readMemberAs (kind : MemberKind) (fields : Tree) : Decoded Member :=
  match kind with
  | .field => (fieldShape.read .buffered fields).map .field
  | .constructor => (constructorShape.read .buffered fields).map .constructor
  | .method => (methodShape.read .buffered fields).map .method

def readMember : Tree → Decoded Member
  | .record entries =>
    match takeKind none entries with
    | .error e => .error e
    | .ok (none, _) => .error (.mismatch (.missing kindKey))
    | .ok (some kind, fields) => readMemberAs kind (.record fields)
  | .list .done => .error (.mismatch (.missing kindKey))
  | .list .cut => .error .malformed
  | .list (.next first fields) =>
    match readKind first with
    | .error e => .error e
    | .ok kind => if fields.isPlain memberRoom then readMemberAs kind (.list fields) else .error .malformed
  | tree => .error (tree.unexpected "internally tagged enum Member")

structure ClassParts where
  modifiers? : Option (List String) := none
  name? : Option String := none
  parent? : Option (Option TypeExpr) := none
  members? : Option (List Member) := none

def classShape : Shape ClassParts Class where
  name := "ClassDeclaration"
  fields :=
    [.part "modifiers" (readList readText) (·.modifiers?) fun p v => { p with modifiers? := some v },
      .part "name" readText (·.name?) fun p v => { p with name? := some v },
      .part "extension"
        (readOptional ((Shape.sole "Extension" "type" (typeShape.read .direct)).read .direct))
        (·.parent?) fun p v => { p with parent? := some v },
      .part "members" (readList readMember) (·.members?) fun p v => { p with members? := some v }]
  blank := {}
  build p := (need "name" p.name?).map fun name =>
    ⟨p.modifiers?.getD [], name, p.parent?.getD none, p.members?.getD []⟩

structure UnitParts where
  package? : Option (Option (List String)) := none
  classes? : Option (List Class) := none

def unitShape : Shape UnitParts Unit where
  name := "CompilationUnit"
  fields :=
    [.part "package"
        (readOptional ((Shape.sole "PackageDeclaration" "segments" (readList readText)).read .direct))
        (·.package?) fun p v => { p with package? := some v },
      .part "classes" (readList (classShape.read .direct)) (·.classes?)
        fun p v => { p with classes? := some v }]
  blank := {}
  build p := .ok ⟨p.package?.getD none, p.classes?.getD []⟩

/-- The unit in a document that holds nothing else. -/
def Unit.ofDocument (document : Document) : Decoded Unit :=
  match unitShape.read .direct document.root with
  | .error e => .error e
  | .ok unit => if document.surplus then .error .malformed else .ok unit

def Unit.ofJson (text : String) : Decoded Unit := Unit.ofDocument (Document.read text)

end ClassLayout.Source

import ClassLayout.Access
import ClassLayout.TypeName

/-!
# Members of a class

Fields, constructors and methods with resolved modifiers and types. Methods and constructors take
the object they are called on as their first parameter.
-/

namespace ClassLayout

structure Param where
  type : TypeName
  name : String
deriving DecidableEq, Repr

/-- The parameter for the object itself. -/
def Param.receiver (type : TypeName) : Param := ⟨type, "__this"⟩

/-- Every object has a hidden pointer to its class's dispatch table, and every class a table. -/
inductive FieldKind
  | plain
  | tablePointer
  | tableInstance
deriving DecidableEq, Repr

structure Field where
  access : Access
  static : Bool
  type : TypeName
  name : String
  /-- The text of the initial value; empty when there is none. -/
  initial : String
  kind : FieldKind := .plain
  /-- The class that an inherited field comes from. -/
  origin? : Option String := none
deriving DecidableEq, Repr

namespace Field

def tablePointer (owner : String) : Field :=
  { access := .pub, static := false, type := "__" ++ owner ++ "_VT*", name := "__vptr", initial := "",
    kind := .tablePointer }

def tableInstance (owner : String) : Field :=
  { access := .pub, static := true, type := "__" ++ owner ++ "_VT", name := "__vtable", initial := "",
    kind := .tableInstance }

def isInternal (field : Field) : Bool := field.kind != .plain

/-- Subclasses take over the fields of the object, not those of the class and not the hidden ones. -/
def isInheritable (field : Field) : Bool := !field.static && !field.isInternal

end Field

structure Constructor where
  access : Access
  name : String
  params : List Param
deriving DecidableEq, Repr

structure Method where
  access : Access
  static : Bool
  result : TypeName
  name : String
  params : List Param
deriving DecidableEq, Repr

namespace Method

/-- The parameters after the receiver. -/
def explicit (method : Method) : List Param := method.params.drop 1

/-- Whether calls go through the dispatch table. -/
def isVirtual (method : Method) : Bool := !method.static && method.access != .priv

end Method

structure Members where
  fields : List Field := []
  constructors : List Constructor := []
  methods : List Method := []
deriving DecidableEq, Repr, Inhabited

namespace Members

def declaresMethod (members : Members) (name : String) : Bool := members.methods.any (·.name == name)

def field? (members : Members) (name : String) : Option Field := members.fields.find? (·.name == name)

end Members

end ClassLayout

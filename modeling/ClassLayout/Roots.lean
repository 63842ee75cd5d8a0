import ClassLayout.Registry

/-!
# Root classes

Three classes stand at the front of every registry: the base of all classes, strings, and the
classes of classes. They come with their layouts and tables complete.
-/

namespace ClassLayout

def baseName : String := "Object"

def stringName : String := "String"

def metaName : String := "Class"

def rootNames : List String := [baseName, stringName, metaName]

def rootCount : Nat := rootNames.length

/-- The name that every constructor has. -/
def constructorName : String := "init"

namespace Root

/-- The receiver and then the given parameters, as pairs of type and name. -/
def params (owner : String) (pairs : List (TypeName × String)) : List Param :=
  .receiver owner :: pairs.map fun pair => ⟨pair.1, pair.2⟩

def method (owner : String) (result : TypeName) (name : String) (pairs : List (TypeName × String)) :
    Method :=
  ⟨.pub, false, result, name, params owner pairs⟩

def constructor (owner : String) (pairs : List (TypeName × String)) : Constructor :=
  ⟨.pub, constructorName, params owner pairs⟩

def field (type : TypeName) (name : String) : Field :=
  { access := .pub, static := false, type, name, initial := "" }

def withHidden (owner : String) (fields : List Field) : List Field :=
  .tablePointer owner :: fields ++ [.tableInstance owner]

def ownSlot (owner : String) (result : TypeName) (name : String) (types : List TypeName) : Slot :=
  .own .pub owner name (.onReceiver owner types result)

def baseSlot (owner : String) (result : TypeName) (name : String) (types : List TypeName) : Slot :=
  .forward .pub baseName name (.onReceiver owner types result)

/-- A slot of the base class, which names no origin. -/
def plainSlot (result : TypeName) (name : String) (types : List TypeName) : Slot :=
  let slot := ownSlot baseName result name types
  { slot with decl := { slot.decl with origin? := none } }

def base : Entry where
  name := baseName
  members :=
    { fields := withHidden baseName []
      methods :=
        [method baseName "int32_t" "hashCode" [],
          method baseName "bool" "equals" [(baseName, "o")],
          method baseName metaName "getClass" [],
          method baseName stringName "toString" []] }
  table :=
    ⟨[.identity baseName metaName,
      plainSlot "int32_t" "hashCode" [],
      plainSlot "bool" "equals" [baseName],
      plainSlot metaName "getClass" [],
      plainSlot stringName "toString" []]⟩

def string : Entry where
  name := stringName
  members :=
    { fields := withHidden stringName [field "std::string" "data"]
      constructors := [constructor stringName [("std::string", "data")]]
      methods :=
        [method stringName "int32_t" "hashCode" [],
          method stringName "bool" "equals" [(baseName, "o")],
          method stringName stringName "toString" [],
          method stringName "int32_t" "length" [],
          method stringName "char" "charAt" [("int32_t", "index")]] }
  table :=
    ⟨[.identity stringName metaName,
      ownSlot stringName "int32_t" "hashCode" [],
      ownSlot stringName "bool" "equals" [baseName],
      baseSlot stringName metaName "getClass" [],
      ownSlot stringName stringName "toString" [],
      ownSlot stringName "int32_t" "length" [],
      ownSlot stringName "char" "charAt" ["int32_t"]]⟩

def metaclass : Entry where
  name := metaName
  members :=
    { fields := withHidden metaName [field stringName "name", field metaName "parent"]
      constructors := [constructor metaName [(stringName, "name"), (metaName, "parent")]]
      methods :=
        [method metaName stringName "toString" [],
          method metaName stringName "getName" [],
          method metaName metaName "getSuperclass" [],
          method metaName "bool" "isInstance" [(baseName, "o")]] }
  table :=
    ⟨[.identity metaName metaName,
      baseSlot metaName "int32_t" "hashCode" [],
      baseSlot metaName "bool" "equals" [baseName],
      baseSlot metaName metaName "getClass" [],
      ownSlot metaName stringName "toString" [],
      ownSlot metaName stringName "getName" [],
      ownSlot metaName metaName "getSuperclass" [],
      ownSlot metaName "bool" "isInstance" [baseName]]⟩

/-- The roots before they are linked to each other. -/
def all : List Entry := [base, string, metaclass]

end Root

/-- The registry with the roots only; strings and classes are objects. -/
def Registry.seeded : Registry where
  entries := [Root.base, { Root.string with parent? := some 0 },
    { Root.metaclass with parent? := some 0 }]
  index := rootNames.zipIdx

end ClassLayout

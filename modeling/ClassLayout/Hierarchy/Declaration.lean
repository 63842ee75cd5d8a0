import ClassLayout.Hierarchy.Error
import ClassLayout.Roots
import ClassLayout.Source.Basic

/-!
# Declarations

The classes of a unit with their members sorted out and typed, in source order. A parent is only a
name here. Names are checked to be new: no class may have the name of a root or of a class before.
-/

namespace ClassLayout

structure Declaration where
  name : String
  parent? : Option String
  members : Members := {}
deriving DecidableEq, Repr

/-- What is collected of a unit. -/
structure Declarations where
  package : String
  classes : List Declaration
deriving DecidableEq, Repr

namespace Declaration

/-- A class that names no parent has the base class as its parent. -/
def parentName (decl : Declaration) : String := decl.parent?.getD baseName

def params (owner : String) (params : List Source.Param) : List Param :=
  .receiver owner :: params.map fun param => ⟨.ofSource param.type.spelling, param.name⟩

/-- One field for each declared name. -/
def fields (decl : Source.FieldDecl) : List Field :=
  let modifiers := Modifiers.ofKeywords decl.modifiers
  decl.declarators.map fun declarator =>
    { access := modifiers.access, static := modifiers.static, type := .ofSource decl.type.spelling,
      name := declarator.name, initial := declarator.initial?.getD "" }

def constructor (owner : String) (decl : Source.ConstructorDecl) : Constructor :=
  ⟨(Modifiers.ofKeywords decl.modifiers).access, constructorName, params owner decl.params⟩

def method (owner : String) (decl : Source.MethodDecl) : Method :=
  let modifiers := Modifiers.ofKeywords decl.modifiers
  let result := match decl.result? with
    | some type => TypeName.ofSource type.spelling
    | none => TypeName.void
  ⟨modifiers.access, modifiers.static, result, decl.name, params owner decl.params⟩

def addMember (owner : String) (members : Members) : Source.Member → Members
  | .field decl => { members with fields := members.fields ++ fields decl }
  | .constructor decl =>
    { members with constructors := members.constructors ++ [constructor owner decl] }
  | .method decl => { members with methods := members.methods ++ [method owner decl] }

def ofSource (decl : Source.Class) : Declaration where
  name := decl.name
  parent? := decl.parent?.map (·.name)
  members := decl.members.foldl (addMember decl.name) {}

/-- The declarations of classes none of which has a name in `taken` or the name of another. -/
def collect (taken : List String) : List Source.Class → Except HierarchyError (List Declaration)
  | [] => .ok []
  | decl :: rest =>
    if taken.contains decl.name then .error (.duplicateClass decl.name)
    else (collect (decl.name :: taken) rest).map (ofSource decl :: ·)

end Declaration

def Declarations.ofUnit (unit : Source.Unit) : Except HierarchyError Declarations :=
  (Declaration.collect rootNames unit.classes).map fun classes => ⟨unit.packageName, classes⟩

end ClassLayout

import ClassLayout.Source.Basic

/-!
# Building units by hand

Units and classes grow one declaration at a time. Types are given by their spelling, a package by
its name with points.
-/

namespace ClassLayout.Source

/-- A unit without classes in the given package; the empty name stands for no package. -/
def Unit.inPackage (package : String) : Unit :=
  ⟨if package.isEmpty then none else some ((splitPoints package.toList).map String.ofList), []⟩

def Unit.withClass (unit : Unit) (decl : Class) : Unit :=
  { unit with classes := unit.classes ++ [decl] }

/-- Parameters from pairs of a type's spelling and a name. -/
def params (pairs : List (String × String)) : List Param :=
  pairs.map fun pair => ⟨[], .ofSpelling pair.1, pair.2⟩

namespace Class

/-- A public class with no parent and no members. -/
def named (name : String) : Class := ⟨["public"], name, none, []⟩

def extending (decl : Class) (parent : String) : Class :=
  { decl with parent? := some (.ofSpelling parent) }

def withMember (decl : Class) (member : Member) : Class :=
  { decl with members := decl.members ++ [member] }

def withField (decl : Class) (modifiers : List String) (type name : String)
    (initial? : Option String) : Class :=
  decl.withMember (.field ⟨modifiers, .ofSpelling type, [⟨name, initial?⟩]⟩)

def withConstructor (decl : Class) (modifiers : List String) (pairs : List (String × String)) :
    Class :=
  decl.withMember (.constructor ⟨modifiers, decl.name, params pairs⟩)

def withMethod (decl : Class) (modifiers : List String) (result? : Option String) (name : String)
    (pairs : List (String × String)) : Class :=
  decl.withMember (.method ⟨modifiers, result?.map .ofSpelling, name, params pairs⟩)

end Class

end ClassLayout.Source

/-!
# Source units

A unit is what a front end hands over: a package name and class declarations, as they are written.
Nothing is resolved here; types are spellings and modifiers are keywords.
-/

namespace ClassLayout.Source

/-- A type as written: a name and the number of array brackets after it. -/
structure TypeExpr where
  name : String
  dimensions : Nat
deriving DecidableEq, Repr, Inhabited

structure Param where
  modifiers : List String
  type : TypeExpr
  name : String
deriving DecidableEq, Repr

/-- A declared name with the text of its initial value, if it has one. -/
structure Declarator where
  name : String
  initial? : Option String
deriving DecidableEq, Repr

structure FieldDecl where
  modifiers : List String
  type : TypeExpr
  declarators : List Declarator
deriving DecidableEq, Repr

structure ConstructorDecl where
  modifiers : List String
  name : String
  params : List Param
deriving DecidableEq, Repr

/-- A method; one without a result returns nothing. -/
structure MethodDecl where
  modifiers : List String
  result? : Option TypeExpr
  name : String
  params : List Param
deriving DecidableEq, Repr

inductive Member
  | field (decl : FieldDecl)
  | constructor (decl : ConstructorDecl)
  | method (decl : MethodDecl)
deriving DecidableEq, Repr

structure Class where
  modifiers : List String
  name : String
  parent? : Option TypeExpr
  members : List Member
deriving DecidableEq, Repr

structure Unit where
  package? : Option (List String)
  classes : List Class
deriving DecidableEq, Repr

namespace TypeExpr

def brackets : Nat → List Char
  | 0 => []
  | n + 1 => '[' :: ']' :: brackets n

/-- The type as written, brackets included. -/
def spelling (type : TypeExpr) : String := String.ofList (type.name.toList ++ brackets type.dimensions)

/-- The bracket pairs at the front of a reversed spelling, and the rest of it. -/
def stripBrackets : List Char → Nat × List Char
  | ']' :: '[' :: rest => let (n, name) := stripBrackets rest; (n + 1, name)
  | rest => (0, rest)

/-- A type from its spelling: every bracket pair at the end is a dimension. -/
def ofSpelling (spelling : String) : TypeExpr :=
  let (n, name) := stripBrackets spelling.toList.reverse
  ⟨String.ofList name.reverse, n⟩

end TypeExpr

/-- The segments between the points of a package name. -/
def splitPoints : List Char → List (List Char)
  | [] => [[]]
  | c :: rest =>
    if c = '.' then [] :: splitPoints rest
    else match splitPoints rest with
    | segment :: segments => (c :: segment) :: segments
    | [] => [[c]]

def joinPoints (segments : List String) : String :=
  String.ofList (['.'].intercalate (segments.map String.toList))

/-- The package name with points between its segments; empty when the unit names no package. -/
def Unit.packageName (unit : Unit) : String :=
  match unit.package? with
  | some segments => joinPoints segments
  | none => ""

end ClassLayout.Source

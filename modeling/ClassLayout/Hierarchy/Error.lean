/-!
# Faults of a class hierarchy
-/

namespace ClassLayout

inductive HierarchyError
  | duplicateClass (name : String)
  | unresolvedParent (child parent : String)
  | circularInheritance (classes : List String)
deriving DecidableEq, Repr

/-- The links of a cycle, back to where it starts. -/
def HierarchyError.cycleText (classes : List String) : String :=
  " -> ".intercalate (classes ++ classes.take 1)

def HierarchyError.message : HierarchyError → String
  | duplicateClass name => "class `" ++ name ++ "` is declared more than once"
  | unresolvedParent child parent => "class `" ++ child ++ "` extends unknown class `" ++ parent ++ "`"
  | circularInheritance classes => "circular inheritance: " ++ cycleText classes

end ClassLayout

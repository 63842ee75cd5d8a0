import ClassLayout.TypeName

/-!
# Call signatures

The types of a call through a table: the receiver, if there is one, then the parameters.
-/

namespace ClassLayout

structure Signature where
  receiver? : Option TypeName
  params : List TypeName
  result : TypeName
deriving DecidableEq, Repr

namespace Signature

/-- A call that takes nothing. -/
def accessor (result : TypeName) : Signature := ⟨none, [], result⟩

def onReceiver (receiver : TypeName) (params : List TypeName) (result : TypeName) : Signature :=
  ⟨some receiver, params, result⟩

def args (signature : Signature) : List TypeName := signature.receiver?.toList ++ signature.params

def argsText (signature : Signature) : String := ", ".intercalate signature.args

/-- The type of a pointer to a function with this signature. -/
def pointerType (signature : Signature) : String :=
  signature.result ++ "(*)(" ++ signature.argsText ++ ")"

/-- The signature for a subclass; a signature without receiver keeps none. -/
def withReceiver (signature : Signature) (receiver : TypeName) : Signature :=
  { signature with receiver? := signature.receiver?.map fun _ => receiver }

end Signature

end ClassLayout

import ClassLayout.Member
import ClassLayout.Signature

/-!
# Slots of a dispatch table

A slot has a declaration, which says what is called through it, and a binding, which says what it
holds.
-/

namespace ClassLayout

/-- What a slot holds: a method of the class itself, a method of an ancestor seen through the
signature of this class, or the identity of the class. -/
inductive Target
  | own (owner method : String)
  | forward (signature : Signature) (definer method : String)
  | identity (owner : String)
deriving DecidableEq, Repr

namespace Target

/-- The expression for the address. -/
def render : Target → String
  | own owner method => "(&__" ++ owner ++ "::" ++ method ++ ")"
  | forward signature definer method =>
    "((" ++ signature.pointerType ++ ") &__" ++ definer ++ "::" ++ method ++ ")"
  | identity owner => "(&__" ++ owner ++ "::__class)"

/-- The class whose code or identity the slot holds. -/
def targetClass : Target → String
  | own owner _ => owner
  | forward _ definer _ => definer
  | identity owner => owner

end Target

inductive SlotKind
  | identity
  | method
deriving DecidableEq, Repr

structure SlotDecl where
  access : Access
  static : Bool
  kind : SlotKind
  name : String
  signature : Signature
  origin? : Option String
deriving DecidableEq, Repr

structure SlotBinding where
  access : Access
  static : Bool
  name : String
  target : Target
deriving DecidableEq, Repr

structure Slot where
  decl : SlotDecl
  binding : SlotBinding
deriving DecidableEq, Repr

namespace Slot

def name (slot : Slot) : String := slot.decl.name

/-- The name of the slot that every table starts with. -/
def identityName : String := "__is_a"

/-- A method that the class has itself. -/
def own (access : Access) (owner name : String) (signature : Signature) : Slot :=
  ⟨⟨access, false, .method, name, signature, some owner⟩, ⟨access, false, name, .own owner name⟩⟩

/-- A method of the class `definer`. -/
def forward (access : Access) (definer name : String) (signature : Signature) : Slot :=
  ⟨⟨access, false, .method, name, signature, some definer⟩,
    ⟨access, false, name, .forward signature definer name⟩⟩

def identity (owner : String) (type : TypeName) : Slot :=
  ⟨⟨.pub, false, .identity, identityName, .accessor type, some owner⟩,
    ⟨.pub, false, identityName, .identity owner⟩⟩

end Slot

end ClassLayout

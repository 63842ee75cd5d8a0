import ClassLayout.Digest.Blake3
import ClassLayout.Slot

/-!
# Dispatch tables

A table is a list of slots; the position of a slot is what callers rely on. The fingerprint of a
table is taken of every slot's position, name, kind, signature and target.
-/

namespace ClassLayout

structure Table where
  slots : List Slot := []
deriving DecidableEq, Repr, Inhabited

namespace Table

def size (table : Table) : Nat := table.slots.length

def names (table : Table) : List String := table.slots.map Slot.name

def push (table : Table) (slot : Slot) : Table := ⟨table.slots ++ [slot]⟩

def slot? (table : Table) (name : String) : Option Slot := table.slots.find? (·.name == name)

def index? (table : Table) (name : String) : Option Nat := table.slots.findIdx? (·.name == name)

def contains (table : Table) (name : String) : Bool := (table.index? name).isSome

end Table

def utf8 (s : String) : List UInt8 := s.toList.flatMap String.utf8EncodeChar

def SlotKind.tag : SlotKind → UInt8
  | .identity => 1
  | .method => 2

/-- What a slot at the given position contributes to the fingerprint. -/
def Slot.bytes (index : Nat) (slot : Slot) : List UInt8 :=
  Digest.littleEndian 8 index ++ utf8 slot.name ++ slot.decl.kind.tag ::
    utf8 slot.decl.signature.pointerType ++ utf8 slot.binding.target.render

namespace Table

/-- The bytes that the fingerprint of a class's table is taken of. -/
def bytes (table : Table) (owner : String) : List UInt8 :=
  utf8 owner ++ table.slots.zipIdx.flatMap fun entry => entry.1.bytes entry.2

def fingerprint (table : Table) (owner : String) : Nat := Digest.Blake3.hash64 (table.bytes owner)

end Table

end ClassLayout

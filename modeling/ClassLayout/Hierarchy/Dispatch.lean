import ClassLayout.Roots

/-!
# Dispatch tables of a hierarchy

The table of a class starts with the slots of its parent's table, in that order: a method that the
class declares takes the slot of its name, and every other slot forwards to the class that defines
the method. The class's further methods follow. Static and private methods have no slot.
-/

namespace ClassLayout

/-- What became of a slot of the parent's table. -/
inductive SlotFate
  | identity
  | overridden
  | forwarded
deriving DecidableEq, Repr

/-- The slots of a class's table: those with a slot of the parent's table behind them, and new ones. -/
structure Derivation where
  inherited : List (SlotFate × Slot)
  introduced : List Slot
deriving DecidableEq, Repr

namespace Derivation

def table (derivation : Derivation) : Table :=
  ⟨derivation.inherited.map (·.2) ++ derivation.introduced⟩

def count (derivation : Derivation) (fate : SlotFate) : Nat :=
  derivation.inherited.countP (·.1 == fate)

end Derivation

namespace Method

/-- The slot for a method of the class itself. -/
def ownSlot (owner : String) (method : Method) : Slot :=
  .own method.access owner method.name
    (.onReceiver owner (method.explicit.map (·.type)) method.result)

/-- The first method of the given name that is called through the table. -/
def overriding? (methods : List Method) (name : String) : Option Method :=
  methods.find? fun method => method.name == name && method.isVirtual

/-- The slots of the methods whose names are not taken, one for each name. -/
def newSlots (owner : String) (taken : List String) : List Method → List Slot
  | [] => []
  | method :: rest =>
    if method.isVirtual && !taken.contains method.name then
      method.ownSlot owner :: newSlots owner (method.name :: taken) rest
    else newSlots owner taken rest

end Method

namespace Slot

/-- The slot of an ancestor's method, as the class `owner` sees it. -/
def forwarded (owner : String) (slot : Slot) : Slot :=
  .forward slot.decl.access (slot.decl.origin?.getD baseName) slot.name
    (slot.decl.signature.withReceiver owner)

/-- What a class makes of a slot of its parent's table; static and private ones are not passed on. -/
def inherit? (owner : String) (methods : List Method) (slot : Slot) : Option (SlotFate × Slot) :=
  if slot.decl.kind = .identity then some (.identity, .identity owner slot.decl.signature.result)
  else if slot.decl.static || slot.decl.access == .priv then none
  else match Method.overriding? methods slot.name with
  | some method => some (.overridden, method.ownSlot owner)
  | none => some (.forwarded, slot.forwarded owner)

end Slot

def Derivation.ofParent (parent : Table) (owner : String) (methods : List Method) : Derivation :=
  let inherited := parent.slots.filterMap (Slot.inherit? owner methods)
  ⟨inherited, Method.newSlots owner (inherited.map (·.2.name)) methods⟩

namespace Entry

def derivation (parent child : Entry) : Derivation :=
  .ofParent parent.table child.name child.members.methods

def buildTable (parent child : Entry) : Entry := { child with table := (derivation parent child).table }

end Entry

/-- The dispatch tables of all classes after the roots. -/
def Registry.buildTables (registry : Registry) : Registry := registry.derive rootCount Entry.buildTable

end ClassLayout

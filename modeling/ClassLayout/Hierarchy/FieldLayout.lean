import ClassLayout.Roots

/-!
# Field layouts

The fields of an object start with those of its parent, in the parent's order, so that an object
can be used wherever its parent is expected. A class's own field is left out when its name is taken
by an inherited field or an earlier one. Children of the base class inherit no field.
-/

namespace ClassLayout

/-- The field as a child of `parent` has it. -/
def Field.inheritedFrom (parent : String) (field : Field) : Field :=
  { field with origin? := some (field.origin?.getD parent) }

/-- The fields that a child takes over. -/
def Entry.handedDown (parent : Entry) : List Field :=
  (parent.members.fields.filter Field.isInheritable).map (.inheritedFrom parent.name)

/-- The fields with a new name, and the others, whose name is taken by then. -/
def Field.sift (taken : List String) : List Field → List Field × List Field
  | [] => ([], [])
  | field :: rest =>
    if taken.contains field.name then
      let (kept, shadowed) := sift taken rest
      (kept, field :: shadowed)
    else
      let (kept, shadowed) := sift (field.name :: taken) rest
      (field :: kept, shadowed)

namespace Entry

/-- Whether a child of this class inherits fields. -/
def handsDown (parent : Entry) : Bool := parent.name != baseName

def siftedFields (parent child : Entry) : List Field × List Field :=
  Field.sift (parent.handedDown.map (·.name)) child.members.fields

def layOut (parent child : Entry) : Entry :=
  if parent.handsDown then
    { child with members :=
        { child.members with fields := parent.handedDown ++ (siftedFields parent child).1 } }
  else child

end Entry

/-- The field layouts of all classes after the roots. -/
def Registry.layOutFields (registry : Registry) : Registry := registry.derive rootCount Entry.layOut

end ClassLayout

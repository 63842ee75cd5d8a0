import ClassLayout.Json.Mismatch

/-!
# Reading values out of trees

Trees are read in order, so the first fault met is the one reported. A record may be written with
its keys, in any order and among other keys, or as a list of its fields in the order of its shape.

Most values are read while the text is; a few are read from a part of the text that has been taken
in whole before. The two differ in one point only: a list with more items than the record has
fields is a fault of the text in the first case and a mismatch in the second.
-/

namespace ClassLayout.Json

abbrev Decoded (α : Type) := Except DecodeError α

inductive Timing
  | direct
  | buffered
deriving DecidableEq, Repr

def readText : Tree → Decoded String
  | .text (some s) => .ok s
  | tree => .error (tree.unexpected "a string")

/-- A number of things: an integer of at most 64 bits that is not negative. -/
def readCount : Tree → Decoded Nat
  | .number n =>
    match n.value? with
    | some (.integer i) =>
      if 0 ≤ i then .ok i.toNat else .error (.mismatch (.value (.integer i) "usize"))
    | some (.real negative magnitude) =>
      .error (.mismatch (.type (.real negative magnitude) "usize"))
    | none => .error .malformed
  | tree => .error (tree.unexpected "usize")

def readOptional {α : Type} (read : Tree → Decoded α) : Tree → Decoded (Option α)
  | .null => .ok none
  | tree => (read tree).map some

def Items.readAll {α : Type} (read : Tree → Decoded α) : Items → Decoded (List α)
  | .done => .ok []
  | .cut => .error .malformed
  | .next head tail =>
    match read head with
    | .error e => .error e
    | .ok first => (tail.readAll read).map (first :: ·)

def readList {α : Type} (read : Tree → Decoded α) : Tree → Decoded (List α)
  | .list items => items.readAll read
  | tree => .error (tree.unexpected "a sequence")

/-- A field of a record of which the parts `ρ` have been read so far. -/
structure FieldReader (ρ : Type) where
  key : String
  isRead : ρ → Bool
  read : Tree → ρ → Decoded ρ

/-- A field kept in the part that `get` shows and `set` fills. -/
def FieldReader.part {ρ β : Type} (key : String) (read : Tree → Decoded β) (get : ρ → Option β)
    (set : ρ → β → ρ) : FieldReader ρ where
  key := key
  isRead parts := (get parts).isSome
  read tree parts := (read tree).map (set parts)

/-- How a record of type `α` is put together from its parts. `build` answers with the key of the
first field that may not be left out and is. -/
structure Shape (ρ α : Type) where
  name : String
  fields : List (FieldReader ρ)
  blank : ρ
  build : ρ → Except String α

/-- A part that may not be left out. -/
def need {α : Type} (key : String) : Option α → Except String α
  | some value => .ok value
  | none => .error key

/-- A record with one field, which may not be left out. -/
def Shape.sole {β : Type} (name key : String) (read : Tree → Decoded β) : Shape (Option β) β where
  name := name
  fields := [.part key read id fun _ value => some value]
  blank := none
  build := need key

namespace Shape

variable {ρ α : Type}

def readEntries (shape : Shape ρ α) (parts : ρ) : Entries → Decoded ρ
  | .done => .ok parts
  | .cut => .error .malformed
  | .next key value tail =>
    match key with
    | none => .error .malformed
    | some key =>
      match shape.fields.find? (·.key == key) with
      | none => if value.isWhole then shape.readEntries parts tail else .error .malformed
      | some field =>
        if field.isRead parts then .error (.mismatch (.duplicate key))
        else match field.read value parts with
        | .error e => .error e
        | .ok parts => shape.readEntries parts tail

/-- Fields against items, as long as there are both; the items that are left come with the parts. -/
def readItems : List (FieldReader ρ) → ρ → Items → Decoded (ρ × Items)
  | [], parts, items => .ok (parts, items)
  | _, parts, .done => .ok (parts, .done)
  | _, _, .cut => .error .malformed
  | field :: fields, parts, .next head tail =>
    match field.read head parts with
    | .error e => .error e
    | .ok parts => readItems fields parts tail

def elements (n : Nat) : String := if n = 1 then "1 element" else toString n ++ " elements"

/-- What is left of a list after the last field. -/
def endItems (timing : Timing) (fields total : Nat) : Items → Decoded Unit
  | .done => .ok ()
  | .cut => .error .malformed
  | .next _ _ =>
    match timing with
    | .direct => .error .malformed
    | .buffered => .error (.mismatch (.length total (elements fields ++ " in sequence")))

def ofEntries (shape : Shape ρ α) (entries : Entries) : Decoded α :=
  match shape.readEntries shape.blank entries with
  | .error e => .error e
  | .ok parts =>
    match shape.build parts with
    | .ok value => .ok value
    | .error key => .error (.mismatch (.missing key))

def ofItems (shape : Shape ρ α) (timing : Timing) (items : Items) : Decoded α :=
  match readItems shape.fields shape.blank items with
  | .error e => .error e
  | .ok (parts, rest) =>
    match shape.build parts with
    | .error key =>
      .error (.mismatch (.length (shape.fields.findIdx (·.key == key))
        ("struct " ++ shape.name ++ " with " ++ elements shape.fields.length)))
    | .ok value => (endItems timing shape.fields.length items.length rest).map fun _ => value

def read (shape : Shape ρ α) (timing : Timing) : Tree → Decoded α
  | .list items => shape.ofItems timing items
  | .record entries => shape.ofEntries entries
  | tree => .error (tree.unexpected ("struct " ++ shape.name))

end Shape

end ClassLayout.Json
